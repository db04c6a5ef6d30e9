import Mathlib.Data.List.Forall2
import PointAndClick.Proofs.Text.LetterCase
import PointAndClick.Script.Condition

/-!
# The commands of a condition

A keyword is read off a word that counts as it letter by letter (`afterKeyword?_eq_some_iff`): any
way to write it in small and capital letters, and below 0x100 nothing else (`ReadsAs.spells`).

The first command ends before the first word behind its own first one that counts as `else`
(`splitBranches_append`), so one without such a word is read whole.
-/

set_option autoImplicit false

namespace PointAndClick

namespace Condition

variable {p q : Char → Bool} {c letter : Char} {cs ds word keyword gap rest branch : List Char}

/-! ## Runs -/

/-- At least one character, and only characters of a kind. -/
structure IsRun (p : Char → Bool) (cs : List Char) : Prop where
  nonempty : cs ≠ []
  all : ∀ c ∈ cs, p c = true

theorem isRun_of_all (hne : cs ≠ []) (h : cs.all p = true) : IsRun p cs :=
  ⟨hne, List.all_eq_true.mp h⟩

theorem IsRun.isEmpty (h : IsRun p cs) : cs.isEmpty = false := by simpa using h.nonempty

/-- What begins with a run begins with a character of its kind. -/
theorem IsRun.head? (h : IsRun p cs) (hq : ∀ c, p c = true → q c = false) (ds : List Char) :
    ∀ c ∈ (cs ++ ds).head?, q c = false := by
  intro c hc
  rw [List.head?_append_of_ne_nil _ h.nonempty] at hc
  exact hq c (h.all c (List.mem_of_mem_head? hc))

/-! ## Characters -/

/-- No blank is a word character. -/
theorem isWordChar_of_isBlank (h : Text.isBlank c = true) : Text.isWordChar c = false := by
  have hcodes : ∀ n ∈ Text.blankCodes, Text.isWordChar (Char.ofNat n) = false := by decide +kernel
  have hc := hcodes _ (Text.mem_blankCodes h)
  rwa [Char.ofNat_toNat] at hc

theorem isBlank_of_isWordChar (h : Text.isWordChar c = true) : Text.isBlank c = false := by
  cases hblank : Text.isBlank c with
  | false => rfl
  | true => rw [isWordChar_of_isBlank hblank] at h; nomatch h

theorem isWordChar_of_isAsciiLetter (h : Text.isAsciiLetter c = true) :
    Text.isWordChar c = true := by
  have hascii : c.toNat < 0x80 := by
    simp only [Text.isAsciiLetter, Bool.or_eq_true, Bool.and_eq_true, decide_eq_true_eq] at h
    omega
  simp [Text.isWordChar, Text.isAlphanumeric, hascii, h]

/-! ## Keywords -/

/-- A letter `a` to `z`, as keywords are made of. -/
def isSmallLetter (c : Char) : Bool := 0x61 ≤ c.toNat && c.toNat ≤ 0x7A

/-- The letters of the keyword that comes before the second command. -/
def elseWord : List Char := ['e', 'l', 's', 'e']

theorem isRun_if : IsRun isSmallLetter ['i', 'f'] := isRun_of_all (by decide) (by decide)

theorem isRun_then : IsRun isSmallLetter ['t', 'h', 'e', 'n'] :=
  isRun_of_all (by decide) (by decide)

theorem isRun_else : IsRun isSmallLetter elseWord := isRun_of_all (by decide) (by decide)

/-- What counts as a letter is a word character. -/
theorem isWordChar_of_matchesLetter (hletter : isSmallLetter letter = true)
    (h : matchesLetter letter c = true) : Text.isWordChar c = true := by
  have hspecial : ∀ n ∈ [0x130, 0x131, 0x17F], Text.isWordChar (Char.ofNat n) = true := by
    decide +kernel
  have hcode {n : Nat} (hn : n ∈ [0x130, 0x131, 0x17F]) (hc : c.toNat = n) :
      Text.isWordChar c = true := by
    have hword := hspecial n hn
    rwa [← hc, Char.ofNat_toNat] at hword
  simp only [matchesLetter, Bool.or_eq_true, Bool.and_eq_true, beq_iff_eq] at h
  rcases h with ((rfl | ⟨-, h⟩) | ⟨-, h | h⟩) | ⟨-, h⟩
  · refine isWordChar_of_isAsciiLetter ?_
    simp only [isSmallLetter, Bool.and_eq_true, decide_eq_true_eq] at hletter
    simp [Text.isAsciiLetter, hletter]
  · exact isWordChar_of_isAsciiLetter h
  · exact hcode (by simp) h
  · exact hcode (by simp) h
  · exact hcode (by simp) h

/-- A word that counts as a keyword, letter by letter. -/
def ReadsAs (keyword word : List Char) : Prop :=
  List.Forall₂ (fun letter c => matchesLetter letter c = true) keyword word

/-- A word that is a keyword, each letter in either case. -/
def Spells (keyword word : List Char) : Prop := word.map Char.toLower = keyword

instance : Decidable (Spells keyword word) :=
  inferInstanceAs (Decidable (word.map Char.toLower = keyword))

theorem afterKeyword?_eq_some_iff :
    afterKeyword? keyword cs = some rest ↔ ∃ word, ReadsAs keyword word ∧ cs = word ++ rest := by
  induction keyword generalizing cs with
  | nil =>
      rw [afterKeyword?, Option.some.injEq]
      constructor
      · rintro rfl
        exact ⟨[], .nil, rfl⟩
      · rintro ⟨_, ⟨⟩, hcs⟩
        exact hcs
  | cons letter keyword ih =>
      constructor
      · intro h
        cases cs with
        | nil => nomatch h
        | cons c cs =>
            rw [afterKeyword?] at h
            split at h
            · rename_i hc
              obtain ⟨word, hword, rfl⟩ := ih.mp h
              exact ⟨c :: word, .cons hc hword, rfl⟩
            · nomatch h
      · rintro ⟨_, _ | ⟨hc, hword⟩, rfl⟩
        rw [List.cons_append, afterKeyword?, if_pos hc]
        exact ih.mpr ⟨_, hword, rfl⟩

/-- The capital letters are those that have a small one. -/
theorem toLower_cases (c : Char) :
    (0x41 ≤ c.toNat ∧ c.toNat ≤ 0x5A) ∧ c.toLower.toNat = c.toNat + 0x20 ∨
      ¬(0x41 ≤ c.toNat ∧ c.toNat ≤ 0x5A) ∧ c.toLower = c := by
  unfold Char.toLower
  split
  · rename_i h
    have hcode : 0x41 ≤ c.toNat ∧ c.toNat ≤ 0x5A := h
    refine .inl ⟨hcode, ?_⟩
    show (c.val + 0x20).toNat = c.toNat + 0x20
    rw [UInt32.toNat_add]
    show (c.toNat + 0x20) % _ = _
    omega
  · rename_i h
    exact .inr ⟨h, rfl⟩

/-- A letter counts as itself in either case. -/
theorem matchesLetter_toLower (c : Char) : matchesLetter c.toLower c = true := by
  rcases toLower_cases c with ⟨hupper, hcode⟩ | ⟨-, hsame⟩
  · have hletter : Text.isAsciiLetter c = true := by
      simp [Text.isAsciiLetter, hupper]
    simp [matchesLetter, hcode, hletter]
  · simp [matchesLetter, hsame]

theorem ReadsAs.of_spells (h : Spells keyword word) : ReadsAs keyword word := by
  subst h
  rw [ReadsAs, List.forall₂_map_left_iff]
  exact List.forall₂_same.mpr fun c _ => matchesLetter_toLower c

/-- Below 0x100 nothing counts as a small letter but the letter itself, in either case. -/
theorem toLower_of_matchesLetter (hletter : isSmallLetter letter = true) (hc : c.toNat < 0x100)
    (h : matchesLetter letter c = true) : c.toLower = letter := by
  simp only [isSmallLetter, Bool.and_eq_true, decide_eq_true_eq] at hletter
  simp only [matchesLetter, Bool.or_eq_true, Bool.and_eq_true, beq_iff_eq] at h
  rcases toLower_cases c with ⟨hupper, hcode⟩ | ⟨hupper, hsame⟩
  · rcases h with ((rfl | ⟨hsmall, -⟩) | ⟨-, h | h⟩) | ⟨-, h⟩
    · omega
    · exact Char.toNat_inj.mp (hcode.trans hsmall)
    all_goals omega
  · rcases h with ((rfl | ⟨hsmall, -⟩) | ⟨-, h | h⟩) | ⟨-, h⟩
    · exact hsame
    all_goals omega

theorem ReadsAs.spells (hkeyword : IsRun isSmallLetter keyword)
    (hword : ∀ c ∈ word, c.toNat < 0x100) (h : ReadsAs keyword word) : Spells keyword word := by
  replace hkeyword := hkeyword.all
  induction h with
  | nil => rfl
  | cons hc _ ih =>
      obtain ⟨hletter, hkeyword⟩ := List.forall_mem_cons.mp hkeyword
      obtain ⟨hcode, hword⟩ := List.forall_mem_cons.mp hword
      exact congrArg₂ List.cons (toLower_of_matchesLetter hletter hcode hc) (ih hword hkeyword)

/-- What counts as a keyword is a word. -/
theorem ReadsAs.isRun (hkeyword : IsRun isSmallLetter keyword) (h : ReadsAs keyword word) :
    IsRun Text.isWordChar word := by
  refine ⟨?_, ?_⟩
  · rintro rfl
    cases h
    exact hkeyword.nonempty rfl
  · replace hkeyword := hkeyword.all
    induction h with
    | nil => nofun
    | cons hc _ ih =>
        obtain ⟨hletter, hkeyword⟩ := List.forall_mem_cons.mp hkeyword
        exact List.forall_mem_cons.mpr ⟨isWordChar_of_matchesLetter hletter hc, ih hkeyword⟩

/-! ## Commands -/

theorem any_head?_gap (h : IsRun Text.isBlank gap) (cs : List Char) :
    (gap ++ cs).head?.any Text.isBlank = true := by
  rw [List.head?_append_of_ne_nil _ h.nonempty, List.head?_eq_some_head h.nonempty]
  exact h.all _ (List.head_mem h.nonempty)

/-- A command in a condition: not empty, and with no blanks around it. -/
structure IsBranch (cs : List Char) : Prop where
  nonempty : cs ≠ []
  trimmed : Text.trim cs = cs

theorem IsBranch.beginsPlain (h : IsBranch branch) : Text.BeginsPlain branch :=
  h.trimmed ▸ Text.beginsPlain_trim branch

/-- A command begins with a character that is no blank. -/
theorem IsBranch.exists_cons (h : IsBranch branch) :
    ∃ c cs, branch = c :: cs ∧ Text.isBlank c = false := by
  cases branch with
  | nil => exact absurd rfl h.nonempty
  | cons c cs => exact ⟨c, cs, rfl, h.beginsPlain c rfl⟩

/-- A command ends with a character that is no blank. -/
theorem IsBranch.exists_plain (h : IsBranch branch) (hcs : cs <:+ branch) (hne : cs ≠ []) :
    ∃ c ∈ cs, Text.isBlank c = false := by
  have hend : ¬Text.EndsBlank branch := by
    rw [← h.trimmed]
    exact Text.not_endsBlank_trim branch
  refine ⟨cs.getLast hne, List.getLast_mem hne, ?_⟩
  rw [hcs.getLast hne, ← Bool.not_eq_true]
  exact fun hblank => hend ⟨_, hblank⟩

theorem branchStart?_gap (hgap : IsRun Text.isBlank gap) (h : IsBranch branch) (rest : List Char) :
    branchStart? (gap ++ (branch ++ rest)) = some (branch ++ rest) := by
  obtain ⟨c, cs, rfl, hc⟩ := h.exists_cons
  obtain ⟨hne, hblank⟩ := hgap
  cases gap with
  | nil => exact absurd rfl hne
  | cons d gap =>
      obtain ⟨hd, hblank⟩ := List.forall_mem_cons.mp hblank
      have hdrop : Text.dropBlanks (gap ++ (c :: cs ++ rest)) = c :: cs ++ rest :=
        Text.dropBlanks_append hblank fun e he => by cases he; exact hc
      simp only [List.cons_append] at hdrop ⊢
      simp [branchStart?, hd, hdrop]

/-- Behind a blank the second command begins with its keyword. -/
theorem elseBranch?_cons_of_blank (h : Text.isBlank c = true) :
    elseBranch? (c :: cs) = (afterKeyword? elseWord (Text.dropBlanks cs)).bind fun rest =>
      (branchStart? rest).map Text.trim := by
  have hdrop : Text.dropBlanks (c :: cs) = Text.dropBlanks cs := by
    simp [Text.dropBlanks, h]
  simp only [elseBranch?, h, hdrop, Bool.not_true, Bool.false_eq_true, if_false]
  unfold elseWord
  cases afterKeyword? ['e', 'l', 's', 'e'] (Text.dropBlanks cs) <;> rfl

theorem elseBranch?_cons_of_plain (h : Text.isBlank c = false) : elseBranch? (c :: cs) = none := by
  simp [elseBranch?, h]

/-- The second command stands behind its keyword and the blanks around that. -/
theorem elseBranch?_gap {gap' : List Char} (hgap : IsRun Text.isBlank gap)
    (hword : ReadsAs elseWord word) (hgap' : IsRun Text.isBlank gap') (h : IsBranch branch) :
    elseBranch? (gap ++ (word ++ (gap' ++ branch))) = some branch := by
  obtain ⟨hne, hblank⟩ := hgap
  cases gap with
  | nil => exact absurd rfl hne
  | cons c gap =>
      obtain ⟨hc, hblank⟩ := List.forall_mem_cons.mp hblank
      have hbegins : Text.BeginsPlain (word ++ (gap' ++ branch)) :=
        (hword.isRun isRun_else).head? (fun _ => isBlank_of_isWordChar) _
      have hafter : afterKeyword? elseWord (word ++ (gap' ++ branch)) = some (gap' ++ branch) :=
        afterKeyword?_eq_some_iff.mpr ⟨word, hword, rfl⟩
      have hstart : branchStart? (gap' ++ branch) = some branch := by
        simpa using branchStart?_gap hgap' h []
      rw [List.cons_append, elseBranch?_cons_of_blank hc, Text.dropBlanks_append hblank hbegins,
        hafter, Option.bind_some, hstart, Option.map_some, h.trimmed]

theorem head?_of_branchStart? (h : branchStart? cs = some rest) :
    ∀ c ∈ cs.head?, Text.isBlank c = true := by
  cases cs with
  | nil => nofun
  | cons c cs =>
      rintro _ ⟨⟩
      by_contra hc
      simp [branchStart?, hc] at h

/-- There is no second command where no word counts as its keyword. -/
theorem elseBranch?_eq_none {more : List Char} (hmore : ∀ c ∈ more.head?, Text.isBlank c = true)
    (hcs : ∃ c ∈ cs, Text.isBlank c = false) (h : ∀ w ∈ Text.wordsOf cs, ¬ReadsAs elseWord w) :
    elseBranch? (cs ++ more) = none := by
  cases cs with
  | nil => simp at hcs
  | cons c cs =>
      cases hc : Text.isBlank c with
      | false => exact elseBranch?_cons_of_plain hc
      | true =>
          have hplain : ∃ c ∈ cs, Text.isBlank c = false := by simpa [hc] using hcs
          rw [List.cons_append, elseBranch?_cons_of_blank hc,
            Text.dropBlanks_append_of_plain hplain, Option.bind_eq_none_iff]
          intro rest hrest
          obtain ⟨word, hword, heq⟩ := afterKeyword?_eq_some_iff.mp hrest
          cases hstart : branchStart? rest with
          | none => rfl
          | some start =>
              -- the keyword is a whole word, since a blank follows
              refine absurd hword (h word ?_)
              rw [Text.wordsOf_cons_of_blank hc]
              have hletters : ∀ d ∈ word, Text.isBlank d = false := fun d hd =>
                isBlank_of_isWordChar ((hword.isRun isRun_else).all d hd)
              exact Text.mem_wordsOf_of_append_eq hplain hmore hletters
                (head?_of_branchStart? hstart) heq

/-- A text of two commands is cut at the first place where the second one can begin. -/
theorem splitBranches_of_none {more : List Char}
    (h : ∀ ds, ds <:+ cs → ds ≠ [] → elseBranch? (ds ++ more) = none) :
    splitBranches (c :: (cs ++ more)) =
      match elseBranch? more with
      | some other => (c :: cs, some other)
      | none => (c :: (cs ++ (splitBranches more).1), (splitBranches more).2) := by
  induction cs generalizing c with
  | nil =>
      rw [List.nil_append, splitBranches]
      cases elseBranch? more <;> rfl
  | cons d cs ih =>
      have hnone : elseBranch? (d :: cs ++ more) = none :=
        h _ List.suffix_rfl (List.cons_ne_nil _ _)
      rw [splitBranches, hnone]
      dsimp only
      rw [List.cons_append, ih fun ds hds => h ds (hds.trans (List.suffix_cons d cs))]
      cases elseBranch? more <;> rfl

theorem splitBranches_append {more : List Char} (hmore : ∀ c ∈ more.head?, Text.isBlank c = true)
    (h : IsBranch branch) (hplain : ∀ w ∈ (Text.wordsOf branch).tail, ¬ReadsAs elseWord w) :
    splitBranches (branch ++ more) =
      match elseBranch? more with
      | some other => (branch, some other)
      | none => (branch ++ (splitBranches more).1, (splitBranches more).2) := by
  obtain ⟨c, cs, rfl, hc⟩ := h.exists_cons
  refine splitBranches_of_none fun ds hds hne => ?_
  obtain ⟨before, rfl⟩ := hds
  -- what follows a blank begins another word than the first one
  have hlast : ∃ d ∈ ds, Text.isBlank d = false :=
    h.exists_plain ((List.suffix_append before ds).trans (List.suffix_cons c _)) hne
  cases ds with
  | nil => exact absurd rfl hne
  | cons d ds =>
      cases hd : Text.isBlank d with
      | false => exact elseBranch?_cons_of_plain hd
      | true =>
          refine elseBranch?_eq_none hmore hlast fun w hw => hplain w ?_
          have hfirst : Text.wordsOf (c :: before) ≠ [] :=
            Text.wordsOf_ne_nil ⟨c, List.mem_cons_self, hc⟩
          have hhead : ∀ e ∈ (d :: ds).head?, Text.isBlank e = true := by
            rintro e ⟨⟩
            exact hd
          rw [← List.cons_append, Text.wordsOf_append hhead, List.tail_append_of_ne_nil hfirst]
          exact List.mem_append_right _ hw

end Condition

end PointAndClick
