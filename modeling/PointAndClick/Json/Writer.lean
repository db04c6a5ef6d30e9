import PointAndClick.Json.Basic
import PointAndClick.Text.RealNumeral

/-!
# Writing JSON

`Json.indented` writes a value over several lines, two blanks further in for each level;
`Json.compact` writes it on one line, with every character above ASCII escaped.
-/

set_option autoImplicit false

namespace PointAndClick.Json

/-! ## Texts -/

/-- Four hexadecimal digits of a code unit behind its mark. -/
def unitEscape (unit : Nat) : List Char :=
  let digits := Nat.toDigits 16 unit
  '\\' :: 'u' :: (List.replicate (4 - digits.length) '0' ++ digits)

/-- The two code units of a character above U+FFFF. -/
def surrogateEscape (code : Nat) : List Char :=
  let offset := code - 0x10000
  unitEscape (0xD800 + offset / 0x400) ++ unitEscape (0xDC00 + offset % 0x400)

/-- A character as it stands in a JSON text. With `ascii`, those above ASCII are escaped. -/
def escapeChar (ascii : Bool) (c : Char) : List Char :=
  let n := c.toNat
  if c = '"' then ['\\', '"']
  else if c = '\\' then ['\\', '\\']
  else if c = '\n' then ['\\', 'n']
  else if c = '\r' then ['\\', 'r']
  else if c = '\t' then ['\\', 't']
  else if n = 0x08 then ['\\', 'b']
  else if n = 0x0C then ['\\', 'f']
  else if n < 0x20 then unitEscape n
  else if ascii && 0x7F < n then
    if n < 0x10000 then unitEscape n else surrogateEscape n
  else [c]

/-- A text between quotes. -/
def quoteText (ascii : Bool) (s : String) : String :=
  String.ofList ('"' :: (s.toList.flatMap (escapeChar ascii) ++ ['"']))

/-! ## Numbers -/

/-- How numbers with a point are written. -/
def realFormat : Text.RealFormat where
  plainFrom := -4
  plainBelow := 16
  exponentWidth := 2
  infinity := "Infinity"

/-! ## Values -/

/-- A new line and the blanks that start it. -/
def newLine (level : Nat) : String :=
  String.ofList ('\n' :: List.replicate (2 * level) ' ')

/-- The items of a list or an object between brackets. With `level` they stand on lines of their
own, one level further in. -/
def enclose (level : Option Nat) (opening closing : String) (items : List String) : String :=
  match items, level with
  | [], _ => opening ++ closing
  | items, none => opening ++ ",".intercalate items ++ closing
  | items, some n =>
      opening ++ newLine (n + 1) ++ ("," ++ newLine (n + 1)).intercalate items ++ newLine n ++
        closing

mutual

/-- A value at a level of indentation, or on one line. -/
def write (ascii : Bool) (level : Option Nat) : Json → String
  | .null => "null"
  | .bool true => "true"
  | .bool false => "false"
  | .int n => Text.decimal n
  | .real x => realFormat.text x
  | .text s => quoteText ascii s
  | .list items => enclose level "[" "]" (writeItems ascii (level.map (· + 1)) items)
  | .object fields =>
      enclose level "\x7b" "\x7d" (writeFields ascii (level.map (· + 1)) fields)

/-- The items of a list. -/
def writeItems (ascii : Bool) (level : Option Nat) : List Json → List String
  | [] => []
  | item :: items => write ascii level item :: writeItems ascii level items

/-- The fields of an object. -/
def writeFields (ascii : Bool) (level : Option Nat) : List (String × Json) → List String
  | [] => []
  | (name, value) :: fields =>
      (quoteText ascii name ++ (if level.isSome then ": " else ":") ++ write ascii level value) ::
        writeFields ascii level fields

end

/-- A value over several lines. -/
def indented (value : Json) : String :=
  write false (some 0) value

/-- A value on one line, in ASCII. -/
def compact (value : Json) : String :=
  write true none value

end PointAndClick.Json
