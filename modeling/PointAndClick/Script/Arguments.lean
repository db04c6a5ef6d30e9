import PointAndClick.Script.Fault
import PointAndClick.Text.LetterCase

/-!
# Arguments of commands

The small languages in which some commands write their arguments: a variable and a value, a sound
and how to play it, a timer with its interval and command.
-/

set_option autoImplicit false

namespace PointAndClick

/-- The arguments of a command on a variable. -/
structure VariableArguments where
  name : String
  value : Option Int := none
deriving DecidableEq, Repr

/-- Reads a name and possibly a value; a value that is no number counts as none. -/
def VariableArguments.parse (text : String) : Except Fault VariableArguments :=
  match Text.words text with
  | [] => .error .noVariable
  | [name] => .ok { name }
  | name :: value :: _ => .ok { name, value := Text.integer? value }

/-- The arguments of a command that plays a sound. -/
structure MediaArguments where
  path : String
  loop : Bool := false
  volume : Int := 100
deriving DecidableEq, Repr

namespace MediaArguments

/-- The loudest volume. -/
def maxVolume : Int := 100

/-- A word that asks for a loop: a number other than zero, or `loop` in any case. -/
def isLoop (word : String) : Bool :=
  match Text.integer? word with
  | some n => n ≠ 0
  | none => Text.lowercased word = "loop"

/-- A word as a volume between 0 and `maxVolume`, which is also that of a word that is no
number. -/
def volumeOf (word : String) : Int :=
  match Text.integer? word with
  | some n => max 0 (min maxVolume n)
  | none => maxVolume

/-- Reads a path, and possibly whether to loop and how loud. -/
def parse (text : String) : Except Fault MediaArguments :=
  match Text.words text with
  | [] => .error .noMedia
  | [path] => .ok { path }
  | [path, loop] => .ok { path, loop := isLoop loop }
  | path :: loop :: volume :: _ => .ok { path, loop := isLoop loop, volume := volumeOf volume }

end MediaArguments

/-- The arguments of a command that starts a timer. -/
structure TimerArguments where
  id : String
  interval : Nat
  command : String
deriving DecidableEq, Repr

/-- Reads an identifier, a positive interval in milliseconds, and a command. -/
def TimerArguments.parse (text : String) : Except Fault TimerArguments :=
  let (id, rest) := Text.firstWord text
  let (interval, command) := Text.firstWord rest
  if command = "" then .error (.timerArguments text)
  else
    match Text.integer? interval with
    | none => .error (.timerInterval interval)
    | some n =>
        if n ≤ 0 then .error (.timerInterval interval)
        else .ok { id, interval := n.toNat, command }

end PointAndClick
