import Mathlib.Algebra.Group.Nat.Defs
import PointAndClick.Proofs.Text.Blank
import PointAndClick.Text.Numeral

/-!
# Integers read back

An integer that is written in decimal digits is read back as itself (`integer?_decimal`), provided
that it has no more digits than a number may have. No other integers are ever read
(`natAbs_lt_of_integer?`).
-/

set_option autoImplicit false

namespace PointAndClick.Text

variable {c : Char} {cs : List Char} {n : Int}

/-! ## Digits -/

theorem toNat_of_isDigit (h : c.isDigit = true) : 0x30 ≤ c.toNat ∧ c.toNat ≤ 0x39 := by
  simp only [Char.isDigit, Bool.and_eq_true, decide_eq_true_eq, ge_iff_le,
    UInt32.le_iff_toNat_le] at h
  exact h

theorem digitValue?_of_isDigit (h : c.isDigit = true) :
    digitValue? c = some (c.toNat - '0'.toNat) := by
  obtain ⟨hlow, hhigh⟩ := toNat_of_isDigit h
  have hascii : c.toNat < 0x80 := by omega
  simp [digitValue?, hascii, hlow, hhigh]

theorem isBlank_of_isDigit (h : c.isDigit = true) : isBlank c = false := by
  obtain ⟨hlow, hhigh⟩ := toNat_of_isDigit h
  simp only [isBlank, Bool.or_eq_false_iff, Bool.and_eq_false_iff, decide_eq_false_iff_not,
    beq_eq_false_iff_ne]
  omega

theorem ne_of_isDigit {d : Char} (h : c.isDigit = true) (hd : d.isDigit = false) : c ≠ d := by
  rintro rfl
  rw [hd] at h
  nomatch h

theorem digitValue?_lt {d : Nat} (h : digitValue? c = some d) : d < 10 := by
  unfold digitValue? at h
  dsimp only at h
  split at h
  · split at h
    · rename_i hdigit
      simp only [Bool.and_eq_true, decide_eq_true_eq] at hdigit
      cases h
      omega
    · nomatch h
  · obtain ⟨first, hfirst, rfl⟩ := Option.map_eq_some_iff.mp h
    have hbounds := List.find?_some hfirst
    simp only [Bool.and_eq_true, decide_eq_true_eq] at hbounds
    omega

/-- Every character of a written number is a digit, the sign before it apart. -/
theorem isDigit_of_mem_toDigits {k : Nat} (h : c ∈ Nat.toDigits 10 k) : c.isDigit = true :=
  Nat.isDigit_of_mem_toDigits (by decide) (by decide) h

/-! ## Reading what is written -/

theorem readDigits_of_isDigit (h : ∀ c ∈ cs, c.isDigit = true) (value : Nat) :
    readDigits value cs = some (Nat.ofDigitChars 10 cs value) := by
  induction cs generalizing value with
  | nil => rfl
  | cons c cs ih =>
      have hc : c.isDigit = true := h c List.mem_cons_self
      have hstep : readDigits value (c :: cs) =
          (digitValue? c).bind fun d => readDigits (value * 10 + d) cs := by
        rw [readDigits]
        rintro d ds rfl -
        exact absurd hc (by decide)
      rw [hstep, digitValue?_of_isDigit hc, Option.bind_some,
        ih fun d hd => h d (List.mem_cons_of_mem c hd), Nat.ofDigitChars_cons, Nat.mul_comm]

theorem readUnsigned?_toDigits {k : Nat} (h : k < 10 ^ maxDigits) :
    readUnsigned? (Nat.toDigits 10 k) = some k := by
  have hdigits : ∀ c ∈ Nat.toDigits 10 k, c.isDigit = true := fun c => isDigit_of_mem_toDigits
  have hlength : (Nat.toDigits 10 k).length ≤ maxDigits :=
    (Nat.length_toDigits_le_iff (by decide) (by decide)).mpr h
  have hvalue : Nat.ofDigitChars 10 (Nat.toDigits 10 k) 0 = k := Nat.ofDigitChars_ten_toDigits
  have hfilter : (Nat.toDigits 10 k).filter (· ≠ '_') = Nat.toDigits 10 k := by
    refine List.filter_eq_self.mpr fun c hc => ?_
    exact decide_eq_true (ne_of_isDigit (hdigits c hc) rfl)
  have hne : Nat.toDigits 10 k ≠ [] := Nat.toDigits_ne_nil
  generalize Nat.toDigits 10 k = cs at *
  cases cs with
  | nil => exact absurd rfl hne
  | cons c cs =>
      have hc : c.isDigit = true := hdigits c List.mem_cons_self
      rw [readUnsigned?, hfilter, if_neg (by omega), digitValue?_of_isDigit hc, Option.bind_some,
        readDigits_of_isDigit fun d hd => hdigits d (List.mem_cons_of_mem c hd), ← hvalue,
        Nat.ofDigitChars_cons]
      simp

/-- A number without sign begins with neither sign. -/
theorem readSigned?_of_isDigit (h : ∀ c ∈ cs.head?, c.isDigit = true) :
    readSigned? cs = (readUnsigned? cs).map Int.ofNat := by
  rw [readSigned?]
  · rintro ds rfl
    exact absurd (h '+' rfl) (by decide)
  · rintro ds rfl
    exact absurd (h '-' rfl) (by decide)

theorem readSigned?_writeNumeral (h : n.natAbs < 10 ^ maxDigits) :
    readSigned? (writeNumeral n) = some n := by
  unfold writeNumeral
  split
  · rename_i hneg
    have hsign : -(n.natAbs : Int) = n := by omega
    rw [readSigned?, readUnsigned?_toDigits h]
    exact congrArg some hsign
  · rename_i hnonneg
    have hsign : (n.natAbs : Int) = n := by omega
    rw [readSigned?_of_isDigit fun c hc => isDigit_of_mem_toDigits (List.mem_of_mem_head? hc),
      readUnsigned?_toDigits h]
    exact congrArg some hsign

theorem eq_minus_or_isDigit_of_mem_writeNumeral (h : c ∈ writeNumeral n) :
    c = '-' ∨ c.isDigit = true := by
  unfold writeNumeral at h
  split at h
  · rcases List.mem_cons.mp h with hsign | hdigit
    · exact Or.inl hsign
    · exact Or.inr (isDigit_of_mem_toDigits hdigit)
  · exact Or.inr (isDigit_of_mem_toDigits h)

theorem isBlank_of_mem_writeNumeral (h : c ∈ writeNumeral n) : isBlank c = false := by
  rcases eq_minus_or_isDigit_of_mem_writeNumeral h with rfl | hdigit
  · rfl
  · exact isBlank_of_isDigit hdigit

/-- An integer that is written is read back. -/
theorem integer?_decimal (h : n.natAbs < 10 ^ maxDigits) : integer? (decimal n) = some n := by
  unfold integer? decimal readNumeral?
  rw [String.toList_ofList, trim_eq_self fun c hc => isBlank_of_mem_writeNumeral hc,
    readSigned?_writeNumeral h]

/-- An integer that is written into a saved state is read back. -/
theorem savedInteger?_decimal (h : n.natAbs < 10 ^ maxDigits) :
    savedInteger? (decimal n) = some n := by
  have hplain : ((decimal n).toList.any fun c => 0x1C ≤ c.toNat && c.toNat ≤ 0x1F) = false := by
    rw [List.any_eq_false]
    intro c hc
    rw [decimal, String.toList_ofList] at hc
    rcases eq_minus_or_isDigit_of_mem_writeNumeral hc with rfl | hdigit
    · decide
    · have hlow := (toNat_of_isDigit hdigit).1
      simp only [Bool.and_eq_true, decide_eq_true_eq]
      omega
  unfold savedInteger?
  rw [hplain]
  exact integer?_decimal h

/-! ## How large a number can be -/

/-- How many characters of a numeral count as digits. -/
def digitCount (cs : List Char) : Nat := (cs.filter (· ≠ '_')).length

theorem digitCount_cons_of_digitValue? {d : Nat} (h : digitValue? c = some d) :
    digitCount (c :: cs) = digitCount cs + 1 := by
  have hc : c ≠ '_' := by
    rintro rfl
    nomatch (show digitValue? '_' = none from rfl).symm.trans h
  simp [digitCount, hc]

/-- With each digit there are ten times as many numbers. -/
theorem lt_of_lt_of_digitValue? {value d k : Nat} (h : digitValue? c = some d)
    (hk : k < (value * 10 + d + 1) * 10 ^ digitCount cs) :
    k < (value + 1) * 10 ^ digitCount (c :: cs) := by
  have hd : d < 10 := digitValue?_lt h
  calc k < (value * 10 + d + 1) * 10 ^ digitCount cs := hk
    _ ≤ ((value + 1) * 10) * 10 ^ digitCount cs := Nat.mul_le_mul_right _ (by omega)
    _ = (value + 1) * 10 ^ digitCount (c :: cs) := by
      rw [digitCount_cons_of_digitValue? h, Nat.pow_succ', Nat.mul_assoc]

theorem lt_of_readDigits {value k : Nat} (h : readDigits value cs = some k) :
    k < (value + 1) * 10 ^ digitCount cs := by
  fun_induction readDigits value cs with
  | case1 value =>
      cases h
      simp [digitCount]
  | case2 value c cs ih =>
      obtain ⟨d, hd, hrest⟩ := Option.bind_eq_some_iff.mp h
      show k < (value + 1) * 10 ^ digitCount (c :: cs)
      exact lt_of_lt_of_digitValue? hd (ih d hrest)
  | case3 value c cs _ ih =>
      obtain ⟨d, hd, hrest⟩ := Option.bind_eq_some_iff.mp h
      exact lt_of_lt_of_digitValue? hd (ih d hrest)

theorem lt_of_readUnsigned? {k : Nat} (h : readUnsigned? cs = some k) : k < 10 ^ maxDigits := by
  cases cs with
  | nil => nomatch h
  | cons c cs =>
      rw [readUnsigned?] at h
      split at h
      · nomatch h
      · rename_i hfew
        have hcount : digitCount (c :: cs) ≤ maxDigits := Nat.le_of_not_lt hfew
        obtain ⟨d, hd, hrest⟩ := Option.bind_eq_some_iff.mp h
        have hlt : k < (0 * 10 + d + 1) * 10 ^ digitCount cs := by
          simpa using lt_of_readDigits hrest
        calc k < (0 + 1) * 10 ^ digitCount (c :: cs) := lt_of_lt_of_digitValue? hd hlt
          _ = 10 ^ digitCount (c :: cs) := by rw [Nat.zero_add, Nat.one_mul]
          _ ≤ 10 ^ maxDigits := Nat.pow_le_pow_right (by decide) hcount

/-- No integer is read that has more digits than a number may have. -/
theorem natAbs_lt_of_readSigned? (h : readSigned? cs = some n) : n.natAbs < 10 ^ maxDigits := by
  unfold readSigned? at h
  split at h <;> obtain ⟨k, hk, rfl⟩ := Option.map_eq_some_iff.mp h
  · exact lt_of_readUnsigned? hk
  · rw [Int.natAbs_neg]
    exact lt_of_readUnsigned? hk
  · exact lt_of_readUnsigned? hk

theorem natAbs_lt_of_integer? {s : String} (h : integer? s = some n) :
    n.natAbs < 10 ^ maxDigits :=
  natAbs_lt_of_readSigned? h

theorem natAbs_lt_of_savedInteger? {s : String} (h : savedInteger? s = some n) :
    n.natAbs < 10 ^ maxDigits := by
  unfold savedInteger? at h
  split at h
  · nomatch h
  · exact natAbs_lt_of_integer? h

end PointAndClick.Text
