import PointAndClick.Hotspot.Placement
import PointAndClick.Json.Basic
import PointAndClick.Play.Duration
import PointAndClick.Scene.Basic
import PointAndClick.Script.Fault
import PointAndClick.Script.Instruction
import PointAndClick.Text.Quoted

/-!
# What a running project asks of its presentation

A running project draws and plays nothing itself. It makes calls to a presentation, and it tells
it of events. `Presentation` says how one behaves: whether it keeps a log, how long its pauses are,
and which calls it refuses.
-/

set_option autoImplicit false

namespace PointAndClick

/-! ## Calls -/

/-- A call to the presentation. -/
inductive Call
  | playWave (path : String) (loop : Bool) (volume : Int)
  | playMidi (path : String) (loop : Bool)
  | playCda (track : String) (loop : Bool)
  | stopWave
  | stopMidi
  | stopAvi
  | stopAll
  | pauseMedia
  | resumeMedia
  | playAvi (image : Placement)
  | showImage (id : String) (image : Placement)
  | showText (id text : String) (font : Option String)
  | showHtml (id : String) (page : Placement)
  | showObject (id : String)
  | hideObject (id : String)
  | invalidate
  | setCursor (spec : Option String)
  | goToScene (index : Nat)
  | navigate (direction : Direction)
  | startTimer (id : String) (interval : Nat) (commands : List Instruction)
  | stopTimer (id : String)
  | executeExternal (program args : String)
  | runProject (path args : String)
  | pause (duration : Nat)
  | quit
deriving DecidableEq, Repr

/-- An argument of a call. -/
inductive Argument
  | text (value : String)
  | textOrNone (value : Option String)
  | number (value : Int)
  | flag (value : Bool)
  | fields (values : List (String × Argument))
  | instructions (values : List Instruction)

namespace Argument

/-- The arguments that place an image. -/
def position (p : Placement) : List (String × Argument) :=
  [("x", .number p.x), ("y", .number p.y), ("z", .number p.z)]

/-- The arguments that name an image and place it. -/
def placement (p : Placement) : Argument :=
  .fields (("path", .text p.path) :: position p)

end Argument

namespace Call

/-- The name of the direction. -/
def directionName : Direction → String
  | .forward => "forward"
  | .backward => "backward"
  | .left => "left"
  | .right => "right"

/-- The name of a call. -/
def method : Call → String
  | playWave .. => "play_wave"
  | playMidi .. => "play_midi"
  | playCda .. => "play_cda"
  | stopWave => "stop_wave"
  | stopMidi => "stop_midi"
  | stopAvi => "stop_avi"
  | stopAll => "stop_all"
  | pauseMedia => "pause_media"
  | resumeMedia => "resume_media"
  | playAvi .. => "play_avi"
  | showImage .. => "show_image"
  | showText .. => "show_text"
  | showHtml .. => "show_html"
  | showObject .. => "show_object"
  | hideObject .. => "hide_object"
  | invalidate => "invalidate"
  | setCursor .. => "set_cursor"
  | goToScene .. => "go_to_scene"
  | navigate d => "navigate_" ++ directionName d
  | startTimer .. => "start_timer"
  | stopTimer .. => "stop_timer"
  | executeExternal .. => "execute_external"
  | runProject .. => "run_project"
  | pause .. => "pause"
  | quit => "quit"

/-- The arguments of a call. -/
def arguments : Call → List Argument
  | playWave path loop volume => [.text path, .flag loop, .number volume]
  | playMidi path loop | playCda path loop => [.text path, .flag loop]
  | playAvi image => [.text image.path, .fields (Argument.position image)]
  | showImage id p | showHtml id p => [.text id, Argument.placement p]
  | showText id text font => [.text id, .fields [("text", .text text), ("font", .textOrNone font)]]
  | showObject id | hideObject id | stopTimer id => [.text id]
  | setCursor spec => [.textOrNone spec]
  | goToScene index => [.number index]
  | startTimer id interval commands => [.text id, .number interval, .instructions commands]
  | executeExternal program args | runProject program args => [.text program, .text args]
  | pause duration => [.number duration]
  | stopWave | stopMidi | stopAvi | stopAll | pauseMedia | resumeMedia | invalidate | navigate _
  | quit => []

end Call

/-! ## Events -/

/-- The kinds of media. -/
inductive Media
  | wave
  | midi
  | cda
  | avi
  | all
deriving DecidableEq, Repr

/-- The name of a kind of media. -/
def Media.name : Media → String
  | wave => "wave"
  | midi => "midi"
  | cda => "cda"
  | avi => "avi"
  | all => "all"

/-- Something that happened in a running project. -/
inductive Event
  | sceneEnter (scene : Nat) (name : String)
  | sceneExit (scene : Nat)
  | hotspotClick (scene : Int) (hotspot : Nat)
  | hotspotEnter (scene : Int) (hotspot : Nat)
  | hotspotExit (scene : Int) (hotspot : Nat)
  | timerTick (timer : String) (tick : Int)
  | commandExecute (verb args : String)
  | variableChange (name : String) (value : Int)
  | mediaStart (kind : Media) (path : String)
  | mediaEnd (kind : Media)
  | message (text : String)
  | loadRequest (slot : String)
  | saveRequest (slot : String)
  | error (verb args reason : String)
deriving DecidableEq, Repr

namespace Event

/-- The name of an event's kind. -/
def kind : Event → String
  | sceneEnter .. => "scene_enter"
  | sceneExit .. => "scene_exit"
  | hotspotClick .. => "hotspot_click"
  | hotspotEnter .. => "hotspot_enter"
  | hotspotExit .. => "hotspot_exit"
  | timerTick .. => "timer_tick"
  | commandExecute .. => "command_execute"
  | variableChange .. => "variable_change"
  | mediaStart .. => "media_start"
  | mediaEnd .. => "media_end"
  | message .. => "message"
  | loadRequest .. => "load_request"
  | saveRequest .. => "save_request"
  | error .. => "error"

/-- What an event tells. -/
def data : Event → List (String × Argument)
  | sceneEnter scene name => [("scene", .number scene), ("name", .text name)]
  | sceneExit scene => [("scene", .number scene)]
  | hotspotClick scene hotspot | hotspotEnter scene hotspot | hotspotExit scene hotspot =>
      [("scene", .number scene), ("hotspot", .number hotspot)]
  | timerTick timer tick => [("timer", .text timer), ("tick", .number tick)]
  | commandExecute verb args => [("verb", .text verb), ("args", .text args)]
  | variableChange name value => [("name", .text name), ("value", .number value)]
  | mediaStart kind path => [("kind", .text kind.name), ("path", .text path)]
  | mediaEnd kind => [("kind", .text kind.name)]
  | message text => [("text", .text text)]
  | loadRequest slot | saveRequest slot => [("slot", .text slot)]
  | .error verb args reason => [("verb", .text verb), ("args", .text args), ("error", .text reason)]

end Event

/-- An entry of a presentation's log. -/
inductive LogEntry
  | call (call : Call)
  | event (event : Event)
deriving DecidableEq, Repr

/-- The name of the method that an entry goes through. All events go through one. -/
def LogEntry.method : LogEntry → String
  | call c => c.method
  | event _ => "emit_event"

/-! ## Presentations -/

/-- How long the pauses of a presentation are. -/
inductive Pace
  /-- They take the time they ask for. -/
  | timed
  /-- They take no time. -/
  | instant
  /-- They take a part of the time they ask for that comes to nothing. -/
  | scaled
deriving DecidableEq, Repr

/-- The milliseconds that a pause takes of those that it asks for. -/
def Pace.taken : Pace → Nat → Except Fault Nat
  | timed, duration => Duration.onClock duration
  | instant, _ => .ok 0
  | scaled, duration => Duration.timesZero duration

/-- What a presentation refuses, with its words: an entry, by its place in the log. So it may refuse
one call or event and not the next. -/
def Refusals : Type := Nat → LogEntry → Option String

/-- Methods that are refused each time. -/
def Refusals.ofTable (table : List (String × String)) : Refusals :=
  fun _ entry => table.lookup entry.method

instance : Coe (List (String × String)) Refusals := ⟨Refusals.ofTable⟩

/-- How a presentation behaves. -/
structure Presentation where
  /-- It keeps a log. -/
  records : Bool := true
  /-- How long its pauses are. -/
  pace : Pace := .instant
  /-- The calls and events that it refuses once they are logged. -/
  refusals : Refusals := fun _ _ => none

/-! ## Arguments as text -/

namespace Argument

/-- An instruction in full. -/
def showInstruction (i : Instruction) : String :=
  s!"Instruction(verb={Text.quoted i.verb}, args={Text.quoted i.args}, source=None)"

/-- Some texts in a row between parentheses, where a single one is followed by a comma. -/
def tuple : List String → String
  | [item] => s!"({item},)"
  | items => "(" ++ ", ".intercalate items ++ ")"

mutual

/-- An argument as text. -/
def shown : Argument → String
  | text value => Text.quoted value
  | textOrNone none => "None"
  | textOrNone (some value) => Text.quoted value
  | number value => Text.decimal value
  | flag true => "True"
  | flag false => "False"
  | fields values => "\x7b" ++ ", ".intercalate (shownFields values) ++ "\x7d"
  | instructions values => tuple (values.map showInstruction)

/-- Named arguments as texts. -/
def shownFields : List (String × Argument) → List String
  | [] => []
  | (name, value) :: rest => (Text.quoted name ++ ": " ++ shown value) :: shownFields rest

end

mutual

/-- An argument as JSON. -/
def toJson : Argument → Json
  | text value => .text value
  | textOrNone value => Json.ofText? value
  | number value => .int value
  | flag value => .bool value
  | fields values => .object (jsonFields values)
  | instructions values => Json.listOf (fun i => .object [
      ("verb", .text i.verb), ("args", .text i.args), ("str", .text i.line)]) values

/-- Named arguments as JSON. -/
def jsonFields : List (String × Argument) → List (String × Json)
  | [] => []
  | (name, value) :: rest => (name, toJson value) :: jsonFields rest

end

end Argument

/-- A call with its arguments as text. -/
def Call.shown (c : Call) : String :=
  c.method ++ "(" ++ ", ".intercalate (c.arguments.map Argument.shown) ++ ")"

/-- What an event tells, as text. -/
def Event.shownData (e : Event) : String :=
  (Argument.fields e.data).shown

/-- An entry of a log as JSON. -/
def LogEntry.toJson : LogEntry → Json
  | call c => .list [.text "call", .text c.method, Json.listOf Argument.toJson c.arguments]
  | event e => .list [.text "event", .text e.kind, .object (Argument.jsonFields e.data)]

end PointAndClick
