import PointAndClick.Text.Blank
import PointAndClick.Text.DigitTable

/-!
# Integers in text

`readNumeral?` reads an integer: blanks around it, one sign, and decimal digits of any script in
which single underscores may stand between two digits. `writeNumeral` writes one in ASCII digits.
Numbers of more than `maxDigits` digits are refused.
-/

set_option autoImplicit false

namespace PointAndClick.Text

/-- The most digits a number may have. -/
def maxDigits : Nat := 4300

/-! ## Reading -/

/-- The number whose digits so far make `value` and go on in `cs`. -/
def readDigits (value : Nat) : List Char → Option Nat
  | [] => some value
  | '_' :: c :: cs => (digitValue? c).bind fun d => readDigits (value * 10 + d) cs
  | c :: cs => (digitValue? c).bind fun d => readDigits (value * 10 + d) cs

/-- A number without sign, which starts with a digit. -/
def readUnsigned? : List Char → Option Nat
  | [] => none
  | c :: cs =>
      if maxDigits < ((c :: cs).filter (· ≠ '_')).length then none
      else (digitValue? c).bind fun d => readDigits d cs

/-- A number with at most one sign. -/
def readSigned? : List Char → Option Int
  | '+' :: cs => (readUnsigned? cs).map Int.ofNat
  | '-' :: cs => (readUnsigned? cs).map fun n => -Int.ofNat n
  | cs => (readUnsigned? cs).map Int.ofNat

/-- A number with blanks around it. -/
def readNumeral? (cs : List Char) : Option Int :=
  readSigned? (trim cs)

/-- `readNumeral?` on strings. -/
def integer? (s : String) : Option Int :=
  readNumeral? s.toList

/-- A number in a saved state: as `integer?`, but the separators U+001C to U+001F are no blanks
there. -/
def savedInteger? (s : String) : Option Int :=
  if s.toList.any fun c => 0x1C ≤ c.toNat && c.toNat ≤ 0x1F then none else integer? s

/-! ## Writing -/

/-- The decimal digits of a number, a minus sign before a negative one. -/
def writeNumeral (n : Int) : List Char :=
  if n < 0 then '-' :: Nat.toDigits 10 n.natAbs else Nat.toDigits 10 n.natAbs

/-- The hexadecimal digits of a number in upper case, a minus sign before a negative one. -/
def writeHex (n : Int) : List Char :=
  let digits := (Nat.toDigits 16 n.natAbs).map Char.toUpper
  if n < 0 then '-' :: digits else digits

/-- `writeNumeral` as a string. -/
def decimal (n : Int) : String :=
  String.ofList (writeNumeral n)

/-- `writeHex` as a string. -/
def hexadecimal (n : Int) : String :=
  String.ofList (writeHex n)

/-! ## Columns -/

/-- The text with as many copies of `fill` before it as it lacks in width. -/
def padLeft (width : Nat) (fill : Char) (s : String) : String :=
  String.ofList (List.replicate (width - s.length) fill) ++ s

/-- The text with as many blanks behind it as it lacks in width. -/
def padRight (width : Nat) (s : String) : String :=
  s ++ String.ofList (List.replicate (width - s.length) ' ')

end PointAndClick.Text
