import PointAndClick.Text.WordTable

/-!
# Letters, digits and word characters

A word character is a letter, a digit of any kind or the underscore.
-/

set_option autoImplicit false

namespace PointAndClick.Text

/-- A letter `a` to `z` of either case. -/
def isAsciiLetter (c : Char) : Bool :=
  let n := c.toNat
  (0x41 ≤ n && n ≤ 0x5A) || (0x61 ≤ n && n ≤ 0x7A)

/-- A digit `0` to `9`. -/
def isAsciiDigit (c : Char) : Bool :=
  let n := c.toNat
  0x30 ≤ n && n ≤ 0x39

/-- A letter or a digit of any script, numbers such as `²` and `½` among them. -/
def isAlphanumeric (c : Char) : Bool :=
  if c.toNat < 0x80 then isAsciiLetter c || isAsciiDigit c
  else CodeRange.holds wordRanges c

/-- A letter, a digit or an underscore. -/
def isWordChar (c : Char) : Bool :=
  isAlphanumeric c || c == '_'

end PointAndClick.Text
