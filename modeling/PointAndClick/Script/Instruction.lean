import PointAndClick.Record.Basic
import PointAndClick.Script.Fault
import PointAndClick.Text.LetterCase
import PointAndClick.Text.Word

/-!
# Instructions

A verb and its arguments: what a command record says, or a line of script such as `scene:Win` or
`playwav intro.wav`.
-/

set_option autoImplicit false

namespace PointAndClick

/-- A verb with its arguments. -/
structure Instruction where
  verb : String
  args : String := ""
deriving DecidableEq, Repr

namespace Instruction

/-! ## Writing -/

/-- The instruction as a line of script. -/
def line (i : Instruction) : String :=
  Text.trimmedEnd s!"{i.verb} {i.args}"

/-! ## Reading -/

/-- The script verbs that stand for others. -/
def aliases : List (String × String) :=
  [("GOTO", "SCENE"), ("SETVAR", "SET_VAR"), ("INCVAR", "INC_VAR"), ("DECVAR", "DEC_VAR"),
    ("WAVE", "PLAYWAV"), ("MIDI", "PLAYMID"), ("AVI", "PLAYAVI"), ("IMAGE", "ADDBMP"),
    ("TEXT", "ADDTEXT"), ("HIDE", "HIDEOBJ"), ("WAIT", "PAUSE"), ("STOPSOUND", "CLOSEWAV"),
    ("STOPMIDI", "CLOSEMID"), ("CURSOR", "DEFCURSOR")]

/-- A verb in upper case, with what it stands for in place of an alias. -/
def canonicalVerb (word : List Char) : String :=
  let verb := String.ofList (Text.upper word)
  (aliases.lookup verb).getD verb

/-- A character of a verb. -/
def isVerbChar (c : Char) : Bool :=
  Text.isAsciiLetter c || c == '_'

/-- The arguments in what follows a verb: they start behind a colon or a blank. -/
def arguments? : List Char → Option (List Char)
  | [] => some []
  | c :: cs =>
      if Text.isBlank c || c == ':' then
        match Text.dropBlanks (c :: cs) with
        | ':' :: rest => some (Text.trim rest)
        | rest => some (Text.trim rest)
      else none

/-- Reads a line of script. -/
def parse (text : String) : Except Fault Instruction :=
  let start := Text.dropBlanks text.toList
  let verb := start.takeWhile isVerbChar
  if verb.isEmpty then .error (.notACommand text)
  else
    match arguments? (start.dropWhile isVerbChar) with
    | none => .error (.notACommand text)
    | some args => .ok ⟨canonicalVerb verb, String.ofList args⟩

/-- What a command record says. -/
def ofRecord? (r : Record) : Option Instruction :=
  r.code?.map fun code => ⟨Command.name code, Text.trimmed r.text⟩

end Instruction

end PointAndClick
