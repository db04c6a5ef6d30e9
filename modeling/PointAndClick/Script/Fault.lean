import PointAndClick.Text.Numeral
import PointAndClick.Text.Quoted

/-!
# Faults

Why a command, a request to a running project or the reading of a saved state fails. `message`
words a fault, `category` sorts the faults into those that callers tell apart.
-/

set_option autoImplicit false

namespace PointAndClick

/-- A cause for which something is not done. -/
inductive Fault
  /-- The text does not start with a verb. -/
  | notACommand (text : String)
  /-- A command on a variable names none. -/
  | noVariable
  /-- The text is not a condition. -/
  | notACondition (text : String)
  /-- The operator of a comparison is unknown. -/
  | unknownOperator (symbol : String)
  /-- The operator of a condition is unknown. -/
  | unknownOperatorIn (symbol text : String)
  /-- A command that plays a sound names none. -/
  | noMedia
  /-- A timer command lacks an identifier, an interval or a command. -/
  | timerArguments (text : String)
  /-- The interval of a timer is not a positive number. -/
  | timerInterval (word : String)
  /-- There is no scene of an index. -/
  | noScene (index : Int) (count : Nat)
  /-- There is no scene of a name. -/
  | noSceneNamed (name : String)
  /-- A scene has no hotspot of an identifier. -/
  | noHotspot (scene hotspot : Int)
  /-- The identifier of a hotspot is not a number. -/
  | hotspotId (word : String)
  /-- The flag of a hotspot is not a number. -/
  | hotspotFlag (word : String)
  /-- A pause has no duration, or a negative one. -/
  | pauseDuration (text : String)
  /-- The seconds of a pause are more than double precision can hold. -/
  | pauseSeconds
  /-- The milliseconds that are counted for the seconds of a pause are more than double precision
  can hold. -/
  | pauseCount
  /-- A pause is too long for a product in double precision. -/
  | pauseProduct
  /-- A command that runs a program names none. -/
  | noProgram (verb : String)
  /-- A command that opens a folder names none. -/
  | noFolder
  /-- A command that runs a project names none. -/
  | noProject
  /-- A command that shows an image lacks an identifier or a file. -/
  | imageArguments (text : String)
  /-- Commands in commands go too deep. -/
  | nesting (limit : Nat)
  /-- A variable is to be written under an empty name. -/
  | emptyName
  /-- The place in the history is not one of its entries. -/
  | historyPlace
  /-- A text in a saved state is not a number. -/
  | savedNumber
  /-- A field of a saved state is not there. -/
  | savedField
  /-- A value of a saved state is of the wrong kind. -/
  | savedKind
  /-- A value of a saved state has to be an object. -/
  | savedObject
  /-- A number of a saved state is infinite. -/
  | savedRange
  /-- The presentation refused to do something. -/
  | presentation (message : String)
deriving DecidableEq, Repr

namespace Fault

/-- What callers tell apart. -/
inductive Category
  | engine
  | condition
  | scene
  | name
  | number
  | field
  | kind
  | object
  | range
  | place
  | presentation
deriving DecidableEq, Repr

/-- The category of a fault. -/
def category : Fault → Category
  | notACondition .. | unknownOperator .. | unknownOperatorIn .. => .condition
  | noScene .. | noSceneNamed .. => .scene
  | emptyName => .name
  | historyPlace => .place
  | savedNumber => .number
  | savedField => .field
  | savedKind => .kind
  | savedObject => .object
  | savedRange | pauseSeconds | pauseCount | pauseProduct => .range
  | presentation .. => .presentation
  | _ => .engine

/-- The wording of a fault. -/
def message : Fault → String
  | notACommand text => s!"Not a command: {Text.quoted text}"
  | noVariable => "Variable command without a name"
  | notACondition text => s!"Unparseable condition {Text.quoted text}"
  | unknownOperator symbol => s!"Unknown comparison operator {Text.quoted symbol}"
  | unknownOperatorIn symbol text =>
      s!"Unknown comparison operator {Text.quoted symbol} in {Text.quoted text}"
  | noMedia => "Media command without a path"
  | timerArguments text => s!"TIMERSTART needs id, interval and command: {Text.quoted text}"
  | timerInterval word => s!"Bad timer interval {Text.quoted word}"
  | noScene index count => s!"No scene {index} (have {count})"
  | noSceneNamed name => s!"No scene named {Text.quoted name}"
  | noHotspot scene hotspot => s!"Scene {scene} has no hotspot {hotspot}"
  | hotspotId word => s!"Bad hotspot id {Text.quoted word}"
  | hotspotFlag word => s!"Bad hotspot flag {Text.quoted word}"
  | pauseDuration text => s!"Bad pause duration {Text.quoted text}"
  | pauseSeconds => "integer division result too large for a float"
  | pauseCount => "cannot convert float infinity to integer"
  | pauseProduct => "int too large to convert to float"
  | noProgram verb => s!"{verb} without a program"
  | noFolder => "EXPLORE without a target"
  | noProject => "RUNPRJ without a project"
  | imageArguments text => s!"ADDBMP needs an id and a file: {Text.quoted text}"
  | nesting limit => s!"Command nesting deeper than {limit}"
  | emptyName => "Variable name must not be empty"
  | historyPlace => "list index out of range"
  | savedNumber => "Not a number"
  | savedField => "Missing field"
  | savedKind => "Wrong kind of value"
  | savedObject => "Not an object"
  | savedRange => "Number out of range"
  | presentation message => message

end Fault

end PointAndClick
