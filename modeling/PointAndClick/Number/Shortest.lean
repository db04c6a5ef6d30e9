import PointAndClick.Number.Binary64

/-!
# Shortest decimals

`Binary64.shortest` finds the decimal number with the fewest digits that reads back as a given
double. It tries the grids of the multiples of a power of ten, coarse ones first, and on each the
two multiples next to the double: if any multiple reads back, one of these two does.
-/

set_option autoImplicit false

namespace PointAndClick.Binary64

/-- A magnitude in units of `10 ^ exponent`, as numerator and denominator. -/
def unitsOf (magnitude : Rat) (exponent : Int) : Nat × Nat :=
  if 0 ≤ exponent then (magnitude.num.natAbs, magnitude.den * Nat.pow 10 exponent.toNat)
  else (magnitude.num.natAbs * Nat.pow 10 (-exponent).toNat, magnitude.den)

/-- The multiple of `10 ^ exponent` that reads back as a magnitude: one of the two next to it, the
nearer one if both do, the even one if both are equally near. -/
def onGrid? (magnitude : Rat) (exponent : Int) : Option Nat :=
  let (num, den) := unitsOf magnitude exponent
  let below := num / den
  let readsBack (digits : Nat) : Bool :=
    decide (ofDecimal false digits exponent = .finite false magnitude)
  match readsBack below, readsBack (below + 1) with
  | true, true => some (roundDiv num den)
  | true, false => some below
  | false, true => some (below + 1)
  | false, false => none

/-- The first number that reads back on `count` grids, from that of `10 ^ exponent` on to finer
ones. -/
def firstOnGrid (magnitude : Rat) (exponent : Int) : Nat → Nat × Int
  | 0 => (0, 0)
  | count + 1 =>
      match onGrid? magnitude exponent with
      | some digits => (digits, exponent)
      | none => firstOnGrid magnitude (exponent - 1) count

/-- The exponent of the coarsest grid: no double reaches the next one. -/
def coarsest : Int := 308

/-- How many grids there are from the coarsest one down to that of `10 ^ -324`, which has a
multiple that reads back for every double. -/
def gridCount : Nat := 633

/-- The digits of the shortest decimal number that reads back as a magnitude, and the power of ten
that they count. -/
def shortest (magnitude : Rat) : Nat × Int :=
  if magnitude.num = 0 then (0, 0) else firstOnGrid magnitude coarsest gridCount

end PointAndClick.Binary64
