/-!
# Double precision

`Binary64.nearest` takes a rational number to the nearest one of 53 significant bits; of two
equally near ones it takes that with the even significand. It does not cut off magnitudes beyond
the largest double. A `Binary64` is what double precision holds: a zero has a sign, and what is
beyond the largest double is infinite.
-/

set_option autoImplicit false

namespace PointAndClick

/-- A number as double precision holds it: a sign and a magnitude. -/
inductive Binary64
  | finite (negative : Bool) (magnitude : Rat)
  | infinite (negative : Bool)
deriving DecidableEq

namespace Binary64

/-! ## Rounding -/

/-- The integer nearest to a quotient, the even one of two. -/
def roundDiv (num den : Nat) : Nat :=
  let quotient := num / den
  let rest := num % den
  if den < 2 * rest ∨ (den = 2 * rest ∧ quotient % 2 = 1) then quotient + 1 else quotient

/-- The quotient of `num / den` and `2 ^ exponent`, as numerator and denominator. -/
def scaled (num den : Nat) (exponent : Int) : Nat × Nat :=
  if 0 ≤ exponent then (num, den * Nat.pow 2 exponent.toNat)
  else (num * Nat.pow 2 (-exponent).toNat, den)

/-- The exponent of the last of the 53 bits of `num / den`, at least that of the least double. -/
def lastBit (num den : Nat) : Int :=
  let guess : Int := (num.log2 : Int) - den.log2 - 52
  let (n, d) := scaled num den guess
  max (if n < 0x10000000000000 * d then guess - 1 else guess) (-1074)

/-- The double nearest to a nonnegative quotient. -/
def nearestQuotient (num den : Nat) : Rat :=
  let exponent := lastBit num den
  let (n, d) := scaled num den exponent
  let (n, d) := scaled (roundDiv n d) 1 (-exponent)
  mkRat n d

/-- The double nearest to a rational number. -/
def nearest (q : Rat) : Rat :=
  let magnitude := nearestQuotient q.num.natAbs q.den
  if q.num < 0 then -magnitude else magnitude

/-! ## Numbers -/

/-- The least magnitude that is rounded to infinity: the middle between the largest double and
the next power of two. -/
def overflow : Nat := 0x3FFFFFFFFFFFFF * Nat.pow 2 970

/-- The quotient of two numbers as double precision holds it. -/
def ofQuotient (negative : Bool) (num den : Nat) : Binary64 :=
  if overflow * den ≤ num then .infinite negative else .finite negative (nearestQuotient num den)

/-- The number `digits * 10 ^ exponent` as double precision holds it. Powers of ten that are too
large for any digits, or too small for these, are not computed. -/
def ofDecimal (negative : Bool) (digits : Nat) (exponent : Int) : Binary64 :=
  if digits = 0 then .finite negative 0
  else if 400 < exponent then .infinite negative
  else if exponent + digits.log2 < -400 then .finite negative 0
  else if 0 ≤ exponent then ofQuotient negative (digits * Nat.pow 10 exponent.toNat) 1
  else ofQuotient negative digits (Nat.pow 10 (-exponent).toNat)

/-- The negative of a number. -/
def negated : Binary64 → Binary64
  | finite negative magnitude => finite (!negative) magnitude
  | infinite negative => infinite (!negative)

/-- The integer next to a number toward zero, if there is one. -/
def toInt? : Binary64 → Option Int
  | finite negative magnitude => some (if negative then -magnitude.floor else magnitude.floor)
  | infinite _ => none

/-- The number is zero. -/
def isZero : Binary64 → Bool
  | finite _ magnitude => magnitude.num = 0
  | infinite _ => false

end Binary64

end PointAndClick
