import PointAndClick.Proofs.Text.Blank
import PointAndClick.Text.LetterCase

/-!
# Upper case is final

A text in upper case is its own upper case (`upper_eq_self`), and no blank comes from a
character that is none. That is so because no code point to which the tables map is one that they
map, or one of a blank. The tables are compared as sets of code points, each written as a number
with a bit for every code point (`bits_upperImages`).
-/

set_option autoImplicit false

namespace PointAndClick.Text

/-! ## Sets of code points -/

/-- The numbers from `first` to `last` in steps of `stride`. -/
def steps (first last stride : Nat) : List Nat :=
  List.range' first ((last - first) / stride + 1) stride

theorem mem_steps {first last stride n : Nat} (hfirst : first ≤ n) (hlast : n ≤ last)
    (hstep : (n - first) % stride = 0) : n ∈ steps first last stride := by
  refine List.mem_range'.mpr ⟨(n - first) / stride, ?_, ?_⟩
  · have hle : (n - first) / stride ≤ (last - first) / stride :=
      Nat.div_le_div_right (Nat.sub_le_sub_right hlast first)
    omega
  · have hdivides : stride * ((n - first) / stride) = n - first :=
      Nat.mul_div_cancel' (Nat.dvd_of_mod_eq_zero hstep)
    omega

/-- The number whose bits are set at the given places. -/
def bits (ns : List Nat) : Nat := ns.foldr (fun n m => 1 <<< n ||| m) 0

theorem testBit_bits (ns : List Nat) (n : Nat) : (bits ns).testBit n = true ↔ n ∈ ns := by
  induction ns with
  | nil => simp [bits]
  | cons m ns ih =>
      show (1 <<< m ||| bits ns).testBit n = true ↔ _
      rw [Nat.testBit_or, Bool.or_eq_true, ih, Nat.one_shiftLeft, Nat.testBit_two_pow,
        decide_eq_true_eq, List.mem_cons, eq_comm]

/-- Sets whose numbers have no bit in common have no member in common. -/
theorem not_mem_of_bits {ms ns : List Nat} {n : Nat} (h : bits ms &&& bits ns = 0)
    (hn : n ∈ ms) : n ∉ ns := by
  intro hn'
  have hbit : (bits ms &&& bits ns).testBit n = true := by
    rw [Nat.testBit_and, (testBit_bits ms n).mpr hn, (testBit_bits ns n).mpr hn']
    rfl
  rw [h, Nat.zero_testBit] at hbit
  nomatch hbit

/-! ## What changes, and to what -/

/-- The code points that have another upper case. -/
def upperSources : List Nat :=
  steps 0x61 0x7A 1 ++ (upperRuns.flatMap fun r => steps r.1 r.2.1 r.2.2.1) ++
    upperExpansions.map (·.1)

/-- The code points of their upper cases. The first stands in for a number that is no code
point. -/
def upperImages : List Nat :=
  0 :: (steps 0x61 0x7A 1).map (· - 0x20) ++
    (upperRuns.flatMap fun r =>
      (steps r.1 r.2.1 r.2.2.1).map fun (n : Nat) => ((n : Int) + r.2.2.2).toNat) ++
    upperExpansions.flatMap (·.2)

/-- The code points of blanks. -/
def blankCodes : List Nat :=
  steps 0x09 0x0D 1 ++ steps 0x1C 0x20 1 ++ steps 0x2000 0x200A 1 ++
    [0x85, 0xA0, 0x1680, 0x2028, 0x2029, 0x202F, 0x205F, 0x3000]

/-- No upper case of a character is a blank or has another upper case. -/
theorem bits_upperImages : bits upperImages &&& bits (upperSources ++ blankCodes) = 0 := by
  decide +kernel

/-- No blank has another upper case. -/
theorem bits_upperSources : bits upperSources &&& bits blankCodes = 0 := by decide +kernel

/-- No character is without an upper case. -/
theorem upperExpansions_ne_nil : ∀ e ∈ upperExpansions, e.2 ≠ [] := by decide

variable {c d : Char} {cs : List Char}

theorem mem_blankCodes (h : isBlank c = true) : c.toNat ∈ blankCodes := by
  have hruns : ∀ first last : Nat, first ≤ c.toNat → c.toNat ≤ last →
      c.toNat ∈ steps first last 1 :=
    fun first last hfirst hlast => mem_steps hfirst hlast (Nat.mod_one _)
  simp only [isBlank, Bool.or_eq_true, Bool.and_eq_true, decide_eq_true_eq, beq_iff_eq] at h
  rw [blankCodes, List.mem_append, List.mem_append, List.mem_append]
  rcases h with ((((((((((hrun | hrun) | h) | h) | h) | hrun) | h) | h) | h) | h) | h)
  · exact Or.inl (Or.inl (Or.inl (hruns 0x09 0x0D hrun.1 hrun.2)))
  · exact Or.inl (Or.inl (Or.inr (hruns 0x1C 0x20 hrun.1 hrun.2)))
  · exact Or.inr (by simp [h])
  · exact Or.inr (by simp [h])
  · exact Or.inr (by simp [h])
  · exact Or.inl (Or.inr (hruns 0x2000 0x200A hrun.1 hrun.2))
  all_goals exact Or.inr (by simp [h])

theorem mem_upperExpansions {codes : List Nat} (h : upperExpansions.lookup c.toNat = some codes) :
    (c.toNat, codes) ∈ upperExpansions := by
  obtain ⟨before, behind, heq, -⟩ := List.lookup_eq_some_iff.mp h
  rw [heq]
  simp

/-- A run that has a code point. -/
theorem mapByRuns_cases (runs : List (Nat × Nat × Nat × Int)) (n : Nat) :
    mapByRuns runs n = n ∨
      ∃ r ∈ runs, n ∈ steps r.1 r.2.1 r.2.2.1 ∧ mapByRuns runs n = ((n : Int) + r.2.2.2).toNat := by
  unfold mapByRuns
  split
  · rename_i first last stride shift hfind
    have hmem := List.mem_of_find?_eq_some hfind
    have hhas := List.find?_some hfind
    simp only [Bool.and_eq_true, decide_eq_true_eq, beq_iff_eq] at hhas
    exact Or.inr ⟨_, hmem, mem_steps hhas.1.1 hhas.1.2 hhas.2, rfl⟩
  · exact Or.inl rfl

/-- A character is its own upper case, or its upper case is made of the code points of upper
cases. -/
theorem upperChar_cases (c : Char) :
    upperChar c = [c] ∨
      c.toNat ∈ upperSources ∧ ∃ codes : List Nat, codes ≠ [] ∧ (∀ n ∈ codes, n ∈ upperImages) ∧
        upperChar c = codes.map Char.ofNat := by
  unfold upperChar
  dsimp only
  split
  · split
    · rename_i hletter
      simp only [Bool.and_eq_true, decide_eq_true_eq] at hletter
      have hsteps : c.toNat ∈ steps 0x61 0x7A 1 := mem_steps hletter.1 hletter.2 (Nat.mod_one _)
      refine Or.inr ⟨?_, [c.toNat - 0x20], by simp, ?_, rfl⟩
      · rw [upperSources, List.mem_append, List.mem_append]
        exact Or.inl (Or.inl hsteps)
      · intro n hn
        rw [List.mem_singleton.mp hn, upperImages, List.mem_append, List.cons_append,
          List.mem_cons, List.mem_append]
        exact Or.inl (Or.inr (Or.inl (List.mem_map_of_mem hsteps)))
    · exact Or.inl rfl
  · unfold mapAboveAscii
    split
    · rename_i codes hcodes
      have hmem := mem_upperExpansions hcodes
      refine Or.inr ⟨?_, codes, upperExpansions_ne_nil _ hmem, ?_, rfl⟩
      · rw [upperSources, List.mem_append]
        exact Or.inr (List.mem_map_of_mem hmem)
      · intro n hn
        rw [upperImages, List.mem_append]
        exact Or.inr (List.mem_flatMap.mpr ⟨_, hmem, hn⟩)
    · rcases mapByRuns_cases upperRuns c.toNat with hself | ⟨r, hr, hhas, himage⟩
      · rw [hself, Char.ofNat_toNat]
        exact Or.inl rfl
      · refine Or.inr ⟨?_, [mapByRuns upperRuns c.toNat], by simp, ?_, rfl⟩
        · rw [upperSources, List.mem_append, List.mem_append]
          exact Or.inl (Or.inr (List.mem_flatMap.mpr ⟨r, hr, hhas⟩))
        · intro n hn
          rw [List.mem_singleton.mp hn, himage, upperImages, List.mem_append, List.cons_append,
            List.mem_cons, List.mem_append]
          exact Or.inl (Or.inr (Or.inr (List.mem_flatMap.mpr ⟨r, hr, List.mem_map_of_mem hhas⟩)))

/-! ## Texts in upper case -/

/-- What upper cases are made of has no other upper case and is no blank. -/
theorem upperChar_of_mem_upperImages (h : c.toNat ∈ upperImages) :
    upperChar c = [c] ∧ isBlank c = false := by
  have hnot := not_mem_of_bits bits_upperImages h
  rw [List.mem_append, not_or] at hnot
  constructor
  · rcases upperChar_cases c with hself | ⟨hsource, -⟩
    · exact hself
    · exact absurd hsource hnot.1
  · cases hblank : isBlank c with
    | false => rfl
    | true => exact absurd (mem_blankCodes hblank) hnot.2

theorem toNat_ofNat_mem_upperImages {n : Nat} (h : n ∈ upperImages) :
    (Char.ofNat n).toNat ∈ upperImages := by
  unfold Char.ofNat
  by_cases hvalid : n.isValidChar
  · rw [dif_pos hvalid]
    exact h
  · rw [dif_neg hvalid]
    exact List.mem_append_left _ (List.mem_append_left _ List.mem_cons_self)

/-- The upper case of a character has no other upper case. -/
theorem upperChar_of_mem_upperChar (h : d ∈ upperChar c) : upperChar d = [d] := by
  rcases upperChar_cases c with hself | ⟨-, codes, -, himages, hcodes⟩
  · rw [hself, List.mem_singleton] at h
    rw [h, hself]
  · rw [hcodes] at h
    obtain ⟨n, hn, rfl⟩ := List.mem_map.mp h
    exact (upperChar_of_mem_upperImages (toNat_ofNat_mem_upperImages (himages n hn))).1

theorem upperChar_ne_nil (c : Char) : upperChar c ≠ [] := by
  rcases upperChar_cases c with hself | ⟨-, codes, hne, -, hcodes⟩
  · simp [hself]
  · simpa [hcodes] using hne

/-- There is no blank in the upper case of a character that is none. -/
theorem isBlank_of_mem_upperChar (hc : isBlank c = false) (h : d ∈ upperChar c) :
    isBlank d = false := by
  rcases upperChar_cases c with hself | ⟨-, codes, -, himages, hcodes⟩
  · rw [hself, List.mem_singleton] at h
    rw [h, hc]
  · rw [hcodes] at h
    obtain ⟨n, hn, rfl⟩ := List.mem_map.mp h
    exact (upperChar_of_mem_upperImages (toNat_ofNat_mem_upperImages (himages n hn))).2

theorem upperChar_of_isBlank (h : isBlank c = true) : upperChar c = [c] := by
  rcases upperChar_cases c with hself | ⟨hsource, -⟩
  · exact hself
  · exact absurd (mem_blankCodes h) (not_mem_of_bits bits_upperSources hsource)

/-- Every part of a text in upper case is in upper case. -/
theorem upper_eq_self {ds : List Char} (h : ∀ d ∈ ds, d ∈ upper cs) : upper ds = ds := by
  induction ds with
  | nil => rfl
  | cons d ds ih =>
      obtain ⟨c, -, hc⟩ := List.mem_flatMap.mp (h d List.mem_cons_self)
      have hrest : upper ds = ds := ih fun e he => h e (List.mem_cons_of_mem d he)
      rw [upper, List.flatMap_cons, upperChar_of_mem_upperChar hc, ← upper, hrest]
      rfl

theorem beginsPlain_upper (h : BeginsPlain cs) : BeginsPlain (upper cs) := by
  cases cs with
  | nil => exact h
  | cons c cs =>
      intro d hd
      rw [upper, List.flatMap_cons, List.head?_append_of_ne_nil _ (upperChar_ne_nil c)] at hd
      exact isBlank_of_mem_upperChar (h c rfl) (List.mem_of_mem_head? hd)

theorem upper_concat (cs : List Char) (c : Char) : upper (cs ++ [c]) = upper cs ++ upperChar c := by
  simp [upper]

theorem endsBlank_of_endsBlank_upper (h : EndsBlank (upper cs)) : EndsBlank cs := by
  obtain ⟨hne, hblank⟩ := h
  cases cs using List.reverseRecOn with
  | nil => exact absurd rfl hne
  | append_singleton cs c =>
      refine ⟨by simp, ?_⟩
      rw [List.getLast_concat]
      by_contra hc
      have hlast : (upper (cs ++ [c])).getLast hne ∈ upperChar c := by
        simp only [upper_concat]
        rw [List.getLast_append_of_ne_nil _ (upperChar_ne_nil c)]
        exact List.getLast_mem _
      rw [isBlank_of_mem_upperChar (by simpa using hc) hlast] at hblank
      nomatch hblank

/-! ## Trimming texts in upper case -/

theorem dropBlanks_upper (cs : List Char) : dropBlanks (upper cs) = upper (dropBlanks cs) := by
  induction cs with
  | nil => rfl
  | cons c cs ih =>
      cases hc : isBlank c with
      | true =>
          have hhead : upper (c :: cs) = c :: upper cs := by
            rw [upper, List.flatMap_cons, upperChar_of_isBlank hc]
            rfl
          simp only [hhead, dropBlanks, List.dropWhile_cons, hc, if_true]
          exact ih
      | false =>
          have hbegins : BeginsPlain (c :: cs) := by
            rintro d ⟨⟩
            exact hc
          rw [dropBlanks_eq_self hbegins, dropBlanks_eq_self (beginsPlain_upper hbegins)]

theorem dropBlanksEnd_upper (cs : List Char) :
    dropBlanksEnd (upper cs) = upper (dropBlanksEnd cs) := by
  induction cs using List.reverseRecOn with
  | nil => rfl
  | append_singleton cs c ih =>
      rw [dropBlanksEnd_concat]
      cases hc : isBlank c with
      | true => rw [upper_concat, upperChar_of_isBlank hc, dropBlanksEnd_concat, hc, if_pos rfl,
          if_pos rfl, ih]
      | false =>
          have hends : ¬EndsBlank (cs ++ [c]) := by
            rintro ⟨hne, hblank⟩
            rw [List.getLast_concat, hc] at hblank
            nomatch hblank
          rw [if_neg Bool.false_ne_true]
          exact dropBlanksEnd_eq_self_iff.mpr fun h => hends (endsBlank_of_endsBlank_upper h)

/-- It makes no difference whether a text is trimmed before or after it is put in upper case. -/
theorem trim_upper (cs : List Char) : trim (upper cs) = upper (trim cs) := by
  unfold trim
  rw [dropBlanks_upper, dropBlanksEnd_upper]

theorem upper_upper (cs : List Char) : upper (upper cs) = upper cs := upper_eq_self fun _ h => h

end PointAndClick.Text
