import PointAndClick.Geometry.Shape
import PointAndClick.Record.Code
import PointAndClick.Text.Blank

/-!
# Records

The elements of which scenes are made: commands with a text, shapes, and two kinds of fillers.
-/

set_option autoImplicit false

namespace PointAndClick

/-- What a record holds. -/
inductive Payload
  | null
  | marker
  | wrapper (code : Int) (text : String)
  | complex (code : Int) (text : String)
  | simple (code : Int) (text : String)
  | shape (tag : Int) (points : List Point)
deriving DecidableEq, Repr

/-- A record and the position of its first byte. -/
structure Record where
  payload : Payload
  offset : Nat := 0
deriving DecidableEq, Repr

namespace Record

/-- The tag a record starts with. -/
def tag (r : Record) : Int :=
  match r.payload with
  | .null => 0
  | .wrapper .. => 1
  | .marker => 2
  | .complex .. => 3
  | .simple code _ => code
  | .shape tag _ => tag

/-- The code of a command record. -/
def code? (r : Record) : Option Int :=
  match r.payload with
  | .wrapper code _ | .complex code _ | .simple code _ => some code
  | .null | .marker | .shape .. => none

/-- The text of a command record, empty for the others. -/
def text (r : Record) : String :=
  match r.payload with
  | .wrapper _ text | .complex _ text | .simple _ text => text
  | .null | .marker | .shape .. => ""

/-- The name of a command record's command. -/
def commandName? (r : Record) : Option String :=
  r.code?.map Command.name

/-- The name of a record's kind. -/
def kindName (r : Record) : String :=
  match r.payload with
  | .null => "NullRecord"
  | .marker => "MarkerRecord"
  | .wrapper .. => "WrapperRecord"
  | .complex .. => "ComplexRecord"
  | .simple .. => "SimpleRecord"
  | .shape .. => "ShapeRecord"

/-- A record on one line: its command and text, or what else it is. -/
def describe (r : Record) : String :=
  match r.payload with
  | .shape tag points => s!"SHAPE[{tag}] {points.length} points"
  | _ =>
      match r.commandName? with
      | some name => Text.trimmedEnd s!"{name} {r.text}"
      | none => r.kindName

/-- The codes of the complex records that count; those with other codes are read and dropped. -/
def keptCodes : List Int := [6, 9, 16, 22]

/-- The record is not one of the complex records that are dropped. -/
def isKept (r : Record) : Bool :=
  match r.payload with
  | .complex code _ => keptCodes.contains code
  | _ => true

end Record

end PointAndClick
