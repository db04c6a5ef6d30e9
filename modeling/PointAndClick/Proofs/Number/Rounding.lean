import Mathlib.Algebra.Order.Field.Power
import Mathlib.Algebra.Order.Ring.Abs
import Mathlib.Data.Rat.Cast.Order
import Mathlib.Tactic.Linarith
import Mathlib.Tactic.Positivity
import PointAndClick.Number.Binary64

/-!
# Rounding to double precision

A positive number is rounded to a multiple of a power of two. The power is the one down to which the
number has 53 bits, or the least of all doubles if that is greater; and the multiple is no farther
away than half of the power (`RoundsTo`). So rounding keeps the order of any two numbers
(`nearest_mono`), and integers of at most 53 bits are left as they are (`nearest_intCast`).
-/

set_option autoImplicit false

namespace PointAndClick.Binary64

variable {num den : Nat} {e f : Int} {m n k : Nat} {v w q r : Rat}

/-! ## Quotients -/

/-- A quotient is rounded down or up, to the nearer side. -/
theorem roundDiv_cases (num den : Nat) :
    roundDiv num den = num / den ∧ 2 * (num % den) ≤ den ∨
      roundDiv num den = num / den + 1 ∧ den ≤ 2 * (num % den) := by
  unfold roundDiv
  dsimp only
  split <;> omega

theorem one_le_roundDiv (hden : 0 < den) (h : den ≤ num) : 1 ≤ roundDiv num den := by
  have hquotient := Nat.div_pos h hden
  rcases roundDiv_cases num den with ⟨heq, -⟩ | ⟨heq, -⟩ <;> rw [heq] <;> omega

/-- A quotient is no farther than a half from the integer to which it is rounded. -/
theorem abs_roundDiv_sub_le (hden : 0 < den) :
    |(roundDiv num den : Rat) - num / den| ≤ 1 / 2 := by
  have hpos : (0 : Rat) < den := by exact_mod_cast hden
  have hsplit : (den : Rat) * (num / den : Nat) + (num % den : Nat) = num := by
    exact_mod_cast Nat.div_add_mod num den
  have hrest : (num % den : Nat) < (den : Rat) := by exact_mod_cast Nat.mod_lt num hden
  have hquotient : (num : Rat) / den = (num / den : Nat) + (num % den : Nat) / den := by
    rw [div_eq_iff hpos.ne', add_mul, div_mul_cancel₀ _ hpos.ne', mul_comm, hsplit]
  have hpart : (0 : Rat) ≤ (num % den : Nat) / den := by positivity
  rw [hquotient, abs_le]
  rcases roundDiv_cases num den with ⟨hdown, hhalf⟩ | ⟨hup, hhalf⟩
  · have hle : ((num % den : Nat) : Rat) / den ≤ 1 / 2 := by
      rw [div_le_iff₀ hpos]
      have : (2 : Rat) * (num % den : Nat) ≤ den := by exact_mod_cast hhalf
      linarith
    rw [hdown]
    constructor <;> linarith
  · have hge : (1 : Rat) / 2 ≤ (num % den : Nat) / den := by
      rw [le_div_iff₀ hpos]
      have : (den : Rat) ≤ 2 * (num % den : Nat) := by exact_mod_cast hhalf
      linarith
    have hlt : ((num % den : Nat) : Rat) / den < 1 := (div_lt_one hpos).mpr hrest
    rw [hup]
    push_cast
    constructor <;> linarith

theorem cast_pow_two (k : Nat) : ((Nat.pow 2 k : Nat) : Rat) = 2 ^ k :=
  Nat.cast_pow 2 k

theorem scaled_div (num den : Nat) (e : Int) :
    ((scaled num den e).1 : Rat) / (scaled num den e).2 = num / den / 2 ^ e := by
  unfold scaled
  split
  · rename_i hnonneg
    obtain ⟨k, rfl⟩ := Int.eq_ofNat_of_zero_le hnonneg
    rw [Int.toNat_natCast, Nat.cast_mul, cast_pow_two, zpow_natCast, div_div]
  · rename_i hneg
    obtain ⟨k, hk⟩ := Int.eq_ofNat_of_zero_le (a := -e) (by omega)
    obtain rfl : e = -(k : Int) := by omega
    rw [neg_neg, Int.toNat_natCast, Nat.cast_mul, cast_pow_two, zpow_neg, zpow_natCast,
      div_inv_eq_mul, mul_div_right_comm]

theorem scaled_pos (hden : 0 < den) : 0 < (scaled num den e).2 := by
  unfold scaled
  split
  · exact Nat.mul_pos hden (Nat.pow_pos (by decide))
  · exact hden

/-! ## The last bit -/

/-- The power of the last bit if the least double is left out of account. -/
def freeBit (num den : Nat) : Int :=
  let guess : Int := (num.log2 : Int) - den.log2 - 52
  if (scaled num den guess).1 < 0x10000000000000 * (scaled num den guess).2 then guess - 1
  else guess

theorem lastBit_eq_max (num den : Nat) : lastBit num den = max (freeBit num den) (-1074) :=
  rfl

theorem two_zpow_pos (e : Int) : (0 : Rat) < 2 ^ e := zpow_pos (by decide) e

theorem two_zpow_le (h : e ≤ f) : (2 : Rat) ^ e ≤ 2 ^ f := zpow_le_zpow_right₀ (by decide) h

theorem two_zpow_add (e f : Int) : (2 : Rat) ^ (e + f) = 2 ^ e * 2 ^ f :=
  zpow_add₀ (by decide) e f

theorem two_zpow_add_natCast (e : Int) (k : Nat) :
    (2 : Rat) ^ (e + k) = (2 ^ k : Nat) * 2 ^ e := by
  rw [add_comm, two_zpow_add, zpow_natCast, Nat.cast_pow, Nat.cast_ofNat]

/-- The bits of a quotient are those of its two parts, or one more. -/
theorem log2_bounds (hnum : 0 < num) (hden : 0 < den) :
    (2 : Rat) ^ ((num.log2 : Int) - den.log2 - 1) ≤ num / den ∧
      (num : Rat) / den < 2 ^ ((num.log2 : Int) - den.log2 + 1) := by
  have hpos : (0 : Rat) < den := by exact_mod_cast hden
  have hnumle : (2 : Rat) ^ (num.log2 : Int) ≤ num := by
    rw [zpow_natCast]
    exact_mod_cast Nat.log2_self_le hnum.ne'
  have hnumlt : (num : Rat) < 2 ^ ((num.log2 : Int) + 1) := by
    have : num < 2 ^ (num.log2 + 1) := Nat.lt_log2_self
    exact_mod_cast this
  have hdenle : (2 : Rat) ^ (den.log2 : Int) ≤ den := by
    rw [zpow_natCast]
    exact_mod_cast Nat.log2_self_le hden.ne'
  have hdenlt : (den : Rat) < 2 ^ ((den.log2 : Int) + 1) := by
    have : den < 2 ^ (den.log2 + 1) := Nat.lt_log2_self
    exact_mod_cast this
  constructor
  · rw [le_div_iff₀ hpos]
    calc (2 : Rat) ^ ((num.log2 : Int) - den.log2 - 1) * den
        ≤ 2 ^ ((num.log2 : Int) - den.log2 - 1) * 2 ^ ((den.log2 : Int) + 1) :=
          mul_le_mul_of_nonneg_left hdenlt.le (two_zpow_pos _).le
      _ = 2 ^ (num.log2 : Int) := by rw [← two_zpow_add]; congr 1; omega
      _ ≤ num := hnumle
  · rw [div_lt_iff₀ hpos]
    calc (num : Rat) < 2 ^ ((num.log2 : Int) + 1) := hnumlt
      _ = 2 ^ ((num.log2 : Int) - den.log2 + 1) * 2 ^ (den.log2 : Int) := by
          rw [← two_zpow_add]; congr 1; omega
      _ ≤ 2 ^ ((num.log2 : Int) - den.log2 + 1) * den :=
          mul_le_mul_of_nonneg_left hdenle (two_zpow_pos _).le

/-- The comparison with 2 ^ 52 tells how many bits the quotient has. -/
theorem scaled_lt_iff (hden : 0 < den) (e : Int) :
    (scaled num den e).1 < 0x10000000000000 * (scaled num den e).2 ↔
      (num : Rat) / den < 2 ^ (e + 52) := by
  have hpos : (0 : Rat) < (scaled num den e).2 := by exact_mod_cast scaled_pos hden
  have hpower : (2 : Rat) ^ (e + 52) = (0x10000000000000 : Nat) * 2 ^ e := two_zpow_add_natCast e 52
  rw [hpower, ← div_lt_iff₀ (two_zpow_pos e), ← scaled_div, div_lt_iff₀ hpos]
  exact_mod_cast Iff.rfl

theorem freeBit_bounds (hnum : 0 < num) (hden : 0 < den) :
    (2 : Rat) ^ (freeBit num den + 52) ≤ num / den ∧
      (num : Rat) / den < 2 ^ (freeBit num den + 53) := by
  obtain ⟨hle, hlt⟩ := log2_bounds hnum hden
  unfold freeBit
  dsimp only
  split
  · rename_i hless
    constructor
    · convert hle using 2
      omega
    · convert (scaled_lt_iff hden _).mp hless using 2
      omega
  · rename_i hmore
    constructor
    · exact not_lt.mp (mt (scaled_lt_iff hden _).mpr hmore)
    · convert hlt using 2
      omega

/-! ## Rounding positive numbers -/

/-- A number is rounded to `m * 2 ^ e`. Down to that power it has at most 53 bits, and as many
unless there is no smaller power; and it is no farther than half of the power from the multiple. -/
structure RoundsTo (v : Rat) (e : Int) (m : Nat) : Prop where
  least : -1074 ≤ e
  lt : v < 2 ^ (e + 53)
  full : e = -1074 ∨ 2 ^ (e + 52) ≤ v
  near : |(m : Rat) - v / 2 ^ e| ≤ 1 / 2

/-- How many of its last bits a quotient is rounded to. -/
def significand (num den : Nat) : Nat :=
  roundDiv (scaled num den (lastBit num den)).1 (scaled num den (lastBit num den)).2

theorem nearestQuotient_eq (num den : Nat) :
    nearestQuotient num den = significand num den * 2 ^ lastBit num den := by
  show mkRat (scaled (significand num den) 1 (-lastBit num den)).1
    (scaled (significand num den) 1 (-lastBit num den)).2 = _
  rw [Rat.mkRat_eq_div, Int.cast_natCast, scaled_div, zpow_neg, div_inv_eq_mul, Nat.cast_one,
    div_one]

theorem exists_roundsTo (hnum : 0 < num) (hden : 0 < den) :
    ∃ e m, RoundsTo (num / den) e m ∧ nearestQuotient num den = m * 2 ^ e := by
  obtain ⟨hle, hlt⟩ := freeBit_bounds hnum hden
  refine ⟨lastBit num den, significand num den, ⟨?_, ?_, ?_, ?_⟩, nearestQuotient_eq num den⟩
  · exact le_max_right _ _
  · exact hlt.trans_le (two_zpow_le (Int.add_le_add_right (le_max_left _ _) _))
  · rw [lastBit_eq_max]
    rcases le_total (-1074) (freeBit num den) with hfree | hleast
    · rw [max_eq_left hfree]
      exact .inr hle
    · exact .inl (max_eq_right hleast)
  · rw [← scaled_div]
    exact abs_roundDiv_sub_le (scaled_pos hden)

/-- Rounding does not pass over a multiple of the power. -/
theorem RoundsTo.le_of_le (h : RoundsTo v e m) (hk : (k : Rat) ≤ v / 2 ^ e) : k ≤ m := by
  have hnear := (abs_le.mp h.near).1
  have hlt : (k : Rat) < m + 1 := by linarith
  exact Nat.lt_succ_iff.mp (by exact_mod_cast hlt)

theorem RoundsTo.ge_of_ge (h : RoundsTo v e m) (hk : v / 2 ^ e ≤ k) : m ≤ k := by
  have hnear := (abs_le.mp h.near).2
  have hlt : (m : Rat) < k + 1 := by linarith
  exact Nat.lt_succ_iff.mp (by exact_mod_cast hlt)

/-- Rounding does not pass over a greater power, either. -/
theorem RoundsTo.le_two_zpow (h : RoundsTo v e m) (hv : v ≤ 2 ^ (e + k)) :
    (m : Rat) * 2 ^ e ≤ 2 ^ (e + k) := by
  rw [two_zpow_add_natCast] at hv ⊢
  have hmost : m ≤ 2 ^ k := h.ge_of_ge ((div_le_iff₀ (two_zpow_pos e)).mpr hv)
  exact mul_le_mul_of_nonneg_right (Nat.cast_le.mpr hmost) (two_zpow_pos e).le

theorem RoundsTo.two_zpow_le (h : RoundsTo v e m) (hv : 2 ^ (e + k) ≤ v) :
    (2 : Rat) ^ (e + k) ≤ m * 2 ^ e := by
  rw [two_zpow_add_natCast] at hv ⊢
  have hleast : 2 ^ k ≤ m := h.le_of_le ((le_div_iff₀ (two_zpow_pos e)).mpr hv)
  exact mul_le_mul_of_nonneg_right (Nat.cast_le.mpr hleast) (two_zpow_pos e).le

/-- A quotient of at least one is not rounded below one. -/
theorem one_le_nearestQuotient (hden : 0 < den) (h : den ≤ num) : 1 ≤ nearestQuotient num den := by
  obtain ⟨e, m, hrounds, heq⟩ := exists_roundsTo (Nat.lt_of_lt_of_le hden h) hden
  have hv : (1 : Rat) ≤ num / den := by
    rw [le_div_iff₀ (by exact_mod_cast hden), one_mul]
    exact_mod_cast h
  rw [heq]
  rcases le_total e 0 with hsmall | hlarge
  · -- one is a multiple of the power
    obtain ⟨k, hk⟩ := Int.eq_ofNat_of_zero_le (a := -e) (by omega)
    have hone : (2 : Rat) ^ (e + k) = 1 := by rw [← hk, add_neg_cancel, zpow_zero]
    exact hone ▸ hrounds.two_zpow_le (hone ▸ hv)
  · have hfull : 2 ^ (e + 52) ≤ (num / den : Rat) :=
      hrounds.full.resolve_left (by omega)
    calc (1 : Rat) = 2 ^ (0 : Int) := (zpow_zero 2).symm
      _ ≤ 2 ^ (e + 52) := Binary64.two_zpow_le (by omega)
      _ ≤ m * 2 ^ e := hrounds.two_zpow_le (k := 52) hfull

/-- A number that is held as finite for a quotient of at least one is a quotient of at least one. -/
theorem den_le_num_of_ofQuotient {negative negative' : Bool}
    (h : ofQuotient negative num den = .finite negative' q) (hden : 0 < den) (hle : den ≤ num) :
    q.den ≤ q.num.natAbs := by
  unfold ofQuotient at h
  split at h
  · nomatch h
  · cases h
    have hone := one_le_nearestQuotient hden hle
    have hpos : (0 : Rat) < (nearestQuotient num den).den := by
      exact_mod_cast (nearestQuotient num den).den_pos
    have hcast : ((nearestQuotient num den).den : Rat) ≤ (nearestQuotient num den).num := by
      rwa [← one_mul ((nearestQuotient num den).den : Rat), ← le_div_iff₀ hpos, Rat.num_div_den]
    have hint : ((nearestQuotient num den).den : Int) ≤ (nearestQuotient num den).num := by
      exact_mod_cast hcast
    omega

/-- Smaller numbers have no greater powers. -/
theorem RoundsTo.power_le (hv : RoundsTo v e m) (hw : RoundsTo w f n) (hle : v ≤ w) : e ≤ f := by
  rcases hv.full with hleast | hfull
  · exact hleast ▸ hw.least
  · by_contra hgt
    have hpower : (2 : Rat) ^ (f + 53) ≤ 2 ^ (e + 52) := Binary64.two_zpow_le (by omega)
    have := hw.lt
    linarith

theorem RoundsTo.mono (hv : RoundsTo v e m) (hw : RoundsTo w f n) (hlt : v < w) :
    (m : Rat) * 2 ^ e ≤ n * 2 ^ f := by
  rcases (hv.power_le hw hlt.le).eq_or_lt with rfl | hless
  · -- between the two multiples the two numbers would be in the wrong order
    refine mul_le_mul_of_nonneg_right ?_ (two_zpow_pos e).le
    have hnearv := (abs_le.mp hv.near).2
    have hnearw := (abs_le.mp hw.near).1
    have hquotient : v / 2 ^ e < w / 2 ^ e := div_lt_div_of_pos_right hlt (two_zpow_pos e)
    have hcast : (m : Rat) < n + 1 := by linarith
    exact_mod_cast Nat.lt_succ_iff.mp (by exact_mod_cast hcast)
  · have hfull : 2 ^ (f + 52) ≤ w := hw.full.resolve_left (by have := hv.least; omega)
    calc (m : Rat) * 2 ^ e ≤ 2 ^ (e + 53) := hv.le_two_zpow (k := 53) hv.lt.le
      _ ≤ 2 ^ (f + 52) := Binary64.two_zpow_le (by omega)
      _ ≤ n * 2 ^ f := hw.two_zpow_le (k := 52) hfull

/-! ## Rounding any number -/

theorem nearest_zero : nearest 0 = 0 := by rfl

theorem nearest_neg (q : Rat) : nearest (-q) = -nearest q := by
  rcases lt_trichotomy q 0 with hneg | rfl | hpos
  · have hnum : q.num < 0 := Rat.num_neg.mpr hneg
    have hnot : ¬(-q).num < 0 := by rw [Rat.num_neg_eq_neg_num]; omega
    rw [nearest, nearest, if_pos hnum, if_neg hnot, neg_neg, Rat.num_neg_eq_neg_num,
      Rat.den_neg_eq_den, Int.natAbs_neg]
  · rfl
  · have hnum : 0 < q.num := Rat.num_pos.mpr hpos
    have hneg : (-q).num < 0 := by rw [Rat.num_neg_eq_neg_num]; omega
    rw [nearest, nearest, if_pos hneg, if_neg hnum.not_gt, Rat.num_neg_eq_neg_num,
      Rat.den_neg_eq_den, Int.natAbs_neg]

theorem exists_roundsTo_nearest (h : 0 < q) : ∃ e m, RoundsTo q e m ∧ nearest q = m * 2 ^ e := by
  have hnum : 0 < q.num := Rat.num_pos.mpr h
  have hnatAbs : 0 < q.num.natAbs := by omega
  obtain ⟨e, m, hrounds, heq⟩ := exists_roundsTo hnatAbs q.den_pos
  have hq : (q.num.natAbs : Rat) / q.den = q := by
    rw [← Int.cast_natCast, Int.natAbs_of_nonneg hnum.le, Rat.num_div_den]
  rw [hq] at hrounds
  exact ⟨e, m, hrounds, by rw [nearest, if_neg hnum.not_gt, heq]⟩

theorem nearest_nonneg (h : 0 ≤ q) : 0 ≤ nearest q := by
  rcases h.eq_or_lt with rfl | hpos
  · rfl
  · obtain ⟨e, m, -, heq⟩ := exists_roundsTo_nearest hpos
    rw [heq]
    exact mul_nonneg (Nat.cast_nonneg m) (two_zpow_pos e).le

theorem nearest_mono_of_nonneg (hq : 0 ≤ q) (h : q ≤ r) : nearest q ≤ nearest r := by
  rcases h.eq_or_lt with rfl | hlt
  · exact le_rfl
  · rcases hq.eq_or_lt with rfl | hpos
    · rw [nearest_zero]
      exact nearest_nonneg h
    · obtain ⟨e, m, hm, heqm⟩ := exists_roundsTo_nearest hpos
      obtain ⟨f, n, hn, heqn⟩ := exists_roundsTo_nearest (hpos.trans hlt)
      rw [heqm, heqn]
      exact hm.mono hn hlt

/-- Rounding keeps the order of numbers. -/
theorem nearest_mono (h : q ≤ r) : nearest q ≤ nearest r := by
  rcases le_total 0 q with hq | hq
  · exact nearest_mono_of_nonneg hq h
  · rcases le_total 0 r with hr | hr
    · have hneg : 0 ≤ nearest (-q) := nearest_nonneg (neg_nonneg.mpr hq)
      rw [nearest_neg] at hneg
      exact (neg_nonneg.mp hneg).trans (nearest_nonneg hr)
    · have hneg := nearest_mono_of_nonneg (neg_nonneg.mpr hr) (neg_le_neg h)
      rw [nearest_neg, nearest_neg] at hneg
      exact neg_le_neg_iff.mp hneg

theorem nearest_natCast (h : n < 2 ^ 53) : nearest n = n := by
  rcases n.eq_zero_or_pos with rfl | hpos
  · rfl
  · obtain ⟨e, m, hm, heq⟩ := exists_roundsTo_nearest (q := n) (by exact_mod_cast hpos)
    have hsmall : e ≤ 0 := by
      by_contra hgt
      have hfull : 2 ^ (e + 52) ≤ (n : Rat) := hm.full.resolve_left (by omega)
      have hpower : (2 : Rat) ^ (53 : Int) ≤ 2 ^ (e + 52) := two_zpow_le (by omega)
      have hcast : (n : Rat) < 2 ^ (53 : Int) := by exact_mod_cast h
      linarith
    obtain ⟨k, hk⟩ := Int.eq_ofNat_of_zero_le (a := -e) (by omega)
    obtain rfl : e = -(k : Int) := by omega
    -- the integer is a multiple of the power itself
    have hmultiple : (n : Rat) / 2 ^ (-(k : Int)) = (n * 2 ^ k : Nat) := by
      rw [zpow_neg, div_inv_eq_mul, zpow_natCast]
      push_cast
      rfl
    have hexact : m = n * 2 ^ k :=
      le_antisymm (hm.ge_of_ge hmultiple.le) (hm.le_of_le hmultiple.ge)
    rw [heq, hexact, ← hmultiple, div_mul_cancel₀ _ (two_zpow_pos _).ne']

/-- Integers of at most 53 bits are left as they are. -/
theorem nearest_intCast {i : Int} (h : i.natAbs < 2 ^ 53) : nearest i = i := by
  obtain ⟨n, rfl | rfl⟩ := i.eq_nat_or_neg
  · rw [Int.natAbs_natCast] at h
    rw [Int.cast_natCast, nearest_natCast h]
  · rw [Int.natAbs_neg, Int.natAbs_natCast] at h
    rw [Int.cast_neg, Int.cast_natCast, nearest_neg, nearest_natCast h]

/-- Rounding does not pass over such an integer. -/
theorem le_nearest {i : Int} (hi : i.natAbs < 2 ^ 53) (h : i ≤ q) : i ≤ nearest q := by
  have hmono := nearest_mono h
  rwa [nearest_intCast hi] at hmono

theorem nearest_le {i : Int} (hi : i.natAbs < 2 ^ 53) (h : q ≤ i) : nearest q ≤ i := by
  have hmono := nearest_mono h
  rwa [nearest_intCast hi] at hmono

end PointAndClick.Binary64
