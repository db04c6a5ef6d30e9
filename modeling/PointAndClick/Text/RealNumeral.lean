import PointAndClick.Number.Shortest
import PointAndClick.Text.Numeral

/-!
# Numbers with places in text

`RealFormat.text` writes a double with the fewest digits that read back: with a point among them,
or, if it is very large or very small, with a power of ten behind them.
-/

set_option autoImplicit false

namespace PointAndClick.Text

/-- How numbers with places are written. -/
structure RealFormat where
  /-- The least power of ten of a first digit for which no power of ten is written. -/
  plainFrom : Int
  /-- The power of ten of a first digit from which on one is written. -/
  plainBelow : Int
  /-- The fewest digits of a power of ten. -/
  exponentWidth : Nat
  /-- What stands for infinity. -/
  infinity : String

namespace RealFormat

/-- Digits around a point, the first of which counts `10 ^ exponent`. There is at least one digit
on either side. -/
def pointed (digits : List Char) (exponent : Int) : List Char :=
  if exponent < 0 then
    '0' :: '.' :: (List.replicate (-exponent - 1).toNat '0' ++ digits)
  else
    let whole := exponent.toNat + 1
    let places := digits.drop whole
    digits.take whole ++ List.replicate (whole - digits.length) '0' ++
      '.' :: (if places.isEmpty then ['0'] else places)

/-- Digits with a power of ten behind them. -/
def powered (f : RealFormat) (digits : List Char) (exponent : Int) : List Char :=
  let power := padLeft f.exponentWidth '0' (decimal exponent.natAbs)
  let places := digits.drop 1
  digits.take 1 ++ (if places.isEmpty then [] else '.' :: places) ++
    'e' :: (if exponent < 0 then '-' else '+') :: power.toList

/-- A magnitude. -/
def magnitude (f : RealFormat) (q : Rat) : List Char :=
  let (number, unit) := Binary64.shortest q
  let digits := Nat.toDigits 10 number
  let exponent := unit + digits.length - 1
  if f.plainFrom ≤ exponent ∧ exponent < f.plainBelow then pointed digits exponent
  else f.powered digits exponent

/-- A number, a minus sign before a negative one and before a negative zero. -/
def text (f : RealFormat) : Binary64 → String
  | .finite negative q => (if negative then "-" else "") ++ String.ofList (f.magnitude q)
  | .infinite negative => (if negative then "-" else "") ++ f.infinity

end RealFormat

end PointAndClick.Text
