import PointAndClick.Script.Fault
import PointAndClick.Text.Word

/-!
# Conditions

The text of a condition is `[if] NAME OPERATOR VALUE then COMMAND [else COMMAND]`: a name and a
value are words, the value possibly with a minus sign, and the keywords may be in any case. The
second command starts at the first `else` between blanks that something follows.
-/

set_option autoImplicit false

namespace PointAndClick

/-! ## Comparisons -/

/-- A relation between two numbers. -/
inductive Comparison
  | eq
  | ne
  | lt
  | le
  | gt
  | ge
deriving DecidableEq, Repr

namespace Comparison

/-- The symbols of the relations. -/
def symbols : List (String × Comparison) :=
  [("==", eq), ("=", eq), ("!=", ne), ("<>", ne), ("<", lt), ("<=", le), (">", gt), (">=", ge)]

/-- The relation of a symbol. -/
def ofSymbol? (symbol : String) : Option Comparison := symbols.lookup symbol

/-- The relation holds between two numbers. -/
def holds (c : Comparison) (a b : Int) : Bool :=
  match c with
  | eq => a == b
  | ne => a != b
  | lt => a < b
  | le => a ≤ b
  | gt => a > b
  | ge => a ≥ b

/-- Compares two numbers by a symbol. -/
def compare (a : Int) (symbol : String) (b : Int) : Except Fault Bool :=
  match ofSymbol? symbol with
  | none => .error (.unknownOperator symbol)
  | some c => .ok (c.holds a b)

end Comparison

/-- A comparison of a variable, and what to do if it holds and if not. -/
structure Condition where
  name : String
  symbol : String
  comparison : Comparison
  value : String
  thenBranch : String
  elseBranch : Option String := none
deriving DecidableEq, Repr

namespace Condition

/-! ## Reading -/

/-- The character is the lower-case letter of a keyword, in either case. The dotless and the
dotted `i` count as an `i`, the long `s` as an `s`. -/
def matchesLetter (letter c : Char) : Bool :=
  c == letter || (c.toNat + 0x20 == letter.toNat && Text.isAsciiLetter c) ||
    (letter == 'i' && (c.toNat == 0x130 || c.toNat == 0x131)) ||
    (letter == 's' && c.toNat == 0x17F)

/-- What follows a keyword at the start of a text. -/
def afterKeyword? : List Char → List Char → Option (List Char)
  | [], cs => some cs
  | _ :: _, [] => none
  | letter :: keyword, c :: cs =>
      if matchesLetter letter c then afterKeyword? keyword cs else none

/-- A character of an operator. -/
def isSymbolChar (c : Char) : Bool :=
  !Text.isWordChar c && !Text.isBlank c && c != '-'

/-- What stands behind a keyword: at least one blank and at least one more character. The blanks
belong to the keyword, except the last one if there is nothing but blanks. -/
def branchStart? (cs : List Char) : Option (List Char) :=
  match cs with
  | [] => none
  | c :: rest =>
      if !Text.isBlank c then none
      else
        match Text.dropBlanks rest with
        | [] => if rest.isEmpty then none else some [c]
        | start => some start

/-- The second command, if the text starts with blanks and `else`. -/
def elseBranch? (cs : List Char) : Option (List Char) :=
  match cs with
  | [] => none
  | c :: _ =>
      if !Text.isBlank c then none
      else
        match afterKeyword? ['e', 'l', 's', 'e'] (Text.dropBlanks cs) with
        | none => none
        | some rest => (branchStart? rest).map Text.trim

/-- The two commands of a text that starts with the first one. -/
def splitBranches : List Char → List Char × Option (List Char)
  | [] => ([], none)
  | c :: cs =>
      match elseBranch? cs with
      | some branch => ([c], some branch)
      | none =>
          let (branch, other) := splitBranches cs
          (c :: branch, other)

/-- The value at the start of a text, and what follows it. -/
def readValue? (cs : List Char) : Option (List Char × List Char) :=
  let (sign, rest) := match cs with
    | '-' :: rest => (['-'], rest)
    | rest => ([], rest)
  let word := rest.takeWhile Text.isWordChar
  if word.isEmpty then none else some (sign ++ word, rest.dropWhile Text.isWordChar)

/-- The parts of a condition without its `if`: name, symbol, value, and the two commands. -/
def readParts? (cs : List Char) :
    Option (List Char × List Char × List Char × List Char × Option (List Char)) := do
  let name := cs.takeWhile Text.isWordChar
  guard !name.isEmpty
  let rest := Text.dropBlanks (cs.dropWhile Text.isWordChar)
  let symbol := rest.takeWhile isSymbolChar
  guard !symbol.isEmpty
  let (value, rest) ← readValue? (Text.dropBlanks (rest.dropWhile isSymbolChar))
  guard (rest.head?.any Text.isBlank)
  let rest ← afterKeyword? ['t', 'h', 'e', 'n'] (Text.dropBlanks rest)
  let (branch, other) := splitBranches (← branchStart? rest)
  return (name, symbol, value, Text.trim branch, other)

/-- The parts of a condition that starts with `if`. -/
def readAfterIf? (cs : List Char) :
    Option (List Char × List Char × List Char × List Char × Option (List Char)) := do
  let rest ← afterKeyword? ['i', 'f'] cs
  guard (rest.head?.any Text.isBlank)
  readParts? (Text.dropBlanks rest)

/-- Reads a condition. An `if` at its start that cannot be the keyword is the variable. -/
def parse (text : String) : Except Fault Condition :=
  let start := Text.dropBlanks text.toList
  match readAfterIf? start <|> readParts? start with
  | none => .error (.notACondition text)
  | some (name, symbol, value, branch, other) =>
      let symbol := String.ofList symbol
      match Comparison.ofSymbol? symbol with
      | none => .error (.unknownOperatorIn symbol text)
      | some comparison =>
          .ok {
            name := String.ofList name, symbol, comparison, value := String.ofList value,
            thenBranch := String.ofList branch, elseBranch := other.map String.ofList }

/-! ## Deciding -/

/-- Whether the comparison holds; a value that is no number is the name of another variable. -/
def evaluate (c : Condition) (lookup : String → Int) : Bool :=
  c.comparison.holds (lookup c.name) ((Text.integer? c.value).getD (lookup c.value))

/-- The command to run, if there is one. -/
def select (c : Condition) (lookup : String → Int) : Option String :=
  if c.evaluate lookup then some c.thenBranch else c.elseBranch

end Condition

end PointAndClick
