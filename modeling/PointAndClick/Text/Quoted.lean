import PointAndClick.Text.PrintableTable

/-!
# Quoted text

A text between single quotes, or between double quotes if it has a single quote and no double
one. The quote, the backslash and the characters that are not printable are escaped.
-/

set_option autoImplicit false

namespace PointAndClick.Text

/-- A character that stands for itself in quoted text, the quote and the backslash apart. -/
def isPrintable (c : Char) : Bool :=
  let n := c.toNat
  if n < 0x80 then 0x20 ≤ n && n < 0x7F else CodeRange.holds printableRanges c

/-- The quote around a text. -/
def quoteFor (cs : List Char) : Char :=
  if '\'' ∈ cs ∧ '"' ∉ cs then '"' else '\''

/-- The code of a character in `width` hexadecimal digits behind a backslash and a letter. -/
def escapeCode (letter : Char) (width : Nat) (c : Char) : List Char :=
  let digits := Nat.toDigits 16 c.toNat
  '\\' :: letter :: (List.replicate (width - digits.length) '0' ++ digits)

/-- A character as it stands between quotes. -/
def escapeChar (quote : Char) (c : Char) : List Char :=
  if c = quote ∨ c = '\\' then ['\\', c]
  else if c = '\n' then ['\\', 'n']
  else if c = '\r' then ['\\', 'r']
  else if c = '\t' then ['\\', 't']
  else if isPrintable c then [c]
  else if c.toNat < 0x100 then escapeCode 'x' 2 c
  else if c.toNat < 0x10000 then escapeCode 'u' 4 c
  else escapeCode 'U' 8 c

/-- A text between quotes. -/
def quote (cs : List Char) : List Char :=
  let q := quoteFor cs
  q :: (cs.flatMap (escapeChar q) ++ [q])

/-- `quote` on strings. -/
def quoted (s : String) : String :=
  String.ofList (quote s.toList)

end PointAndClick.Text
