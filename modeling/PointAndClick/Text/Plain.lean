import PointAndClick.Text.Word

/-!
# Plain text

A terminal takes some sequences of characters for commands: an escape, a bracket, parameters and a
letter. `plain` is a text without them.
-/

set_option autoImplicit false

namespace PointAndClick.Text

/-- A character of a terminal command's parameters. -/
def isParameter (c : Char) : Bool :=
  c == ';' || c == '?' || isAsciiDigit c

/-- The length of the terminal command at the start of a text. -/
def controlLength? : List Char → Option Nat
  | escape :: '[' :: cs =>
      if escape.toNat = 0x1B then
        match cs.dropWhile isParameter with
        | [] => none
        | c :: _ =>
            if isAsciiLetter c then some ((cs.takeWhile isParameter).length + 3) else none
      else none
  | _ => none

/-- The text without terminal commands, and without its first `skip` characters. -/
def plainFrom : Nat → List Char → List Char
  | _, [] => []
  | skip + 1, _ :: cs => plainFrom skip cs
  | 0, c :: cs =>
      match controlLength? (c :: cs) with
      | some length => plainFrom (length - 1) cs
      | none => c :: plainFrom 0 cs

/-- The text without terminal commands. -/
def plain (s : String) : String :=
  String.ofList (plainFrom 0 s.toList)

end PointAndClick.Text
