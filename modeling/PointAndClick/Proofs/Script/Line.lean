import PointAndClick.Proofs.Text.LetterCase
import PointAndClick.Script.Instruction

/-!
# Lines of script that are read back

An instruction that was read is written with one blank behind its verb. Its verb is canonical and
its arguments are trimmed (`Instruction.IsCanonical`), so that the line is read again with the same
verb. The arguments are the same too, unless they begin with a colon: that one is then taken for the
one that may stand behind a verb (`Instruction.parse_line`).
-/

set_option autoImplicit false

namespace PointAndClick

namespace Instruction

variable {c d : Char} {cs word : List Char} {text : String} {i : Instruction}

/-! ## Verbs -/

theorem isBlank_of_isVerbChar (h : isVerbChar c = true) : Text.isBlank c = false := by
  have hcode : (0x41 ≤ c.toNat ∧ c.toNat ≤ 0x5A) ∨ (0x61 ≤ c.toNat ∧ c.toNat ≤ 0x7A) ∨
      c.toNat = 0x5F := by
    simp only [isVerbChar, Text.isAsciiLetter, Bool.or_eq_true, Bool.and_eq_true,
      decide_eq_true_eq, beq_iff_eq] at h
    rcases h with (h | h) | rfl
    · exact Or.inl h
    · exact Or.inr (Or.inl h)
    · exact Or.inr (Or.inr rfl)
  rw [← Bool.not_eq_true]
  simp only [Text.isBlank, Bool.or_eq_true, Bool.and_eq_true, decide_eq_true_eq, beq_iff_eq]
  omega

/-- The upper case of a character of a verb is one. -/
theorem isVerbChar_of_mem_upperChar (h : isVerbChar c = true) (hd : d ∈ Text.upperChar c) :
    isVerbChar d = true := by
  unfold Text.upperChar at hd
  dsimp only at hd
  split at hd
  · split at hd
    · rename_i hletter
      simp only [Bool.and_eq_true, decide_eq_true_eq] at hletter
      rw [List.mem_singleton.mp hd]
      have hvalid : (c.toNat - 0x20).isValidChar := Or.inl (by omega)
      have hcode : (Char.ofNat (c.toNat - 0x20)).toNat = c.toNat - 0x20 := by
        rw [Char.ofNat, dif_pos hvalid]
        rfl
      simp only [isVerbChar, Text.isAsciiLetter, hcode, Bool.or_eq_true, Bool.and_eq_true,
        decide_eq_true_eq]
      exact Or.inl (Or.inl ⟨by omega, by omega⟩)
    · rw [List.mem_singleton.mp hd]
      exact h
  -- the characters of verbs are all below 0x80
  · rename_i hascii
    exfalso
    simp only [isVerbChar, Text.isAsciiLetter, Bool.or_eq_true, Bool.and_eq_true,
      decide_eq_true_eq, beq_iff_eq] at h
    rcases h with (h | h) | rfl
    · omega
    · omega
    · exact hascii (by decide)

/-- What an alias stands for is a verb, and no alias. -/
theorem aliases_canonical : ∀ e ∈ aliases,
    (e.2.toList ≠ [] ∧ ∀ c ∈ e.2.toList, isVerbChar c = true) ∧
      canonicalVerb e.2.toList = e.2 := by
  have hall : aliases.all (fun e => !e.2.toList.isEmpty && e.2.toList.all isVerbChar &&
      canonicalVerb e.2.toList == e.2) = true := by decide +kernel
  intro e he
  have hverb := List.all_eq_true.mp hall e he
  simp only [Bool.and_eq_true, Bool.not_eq_true', List.isEmpty_eq_false_iff, List.all_eq_true,
    beq_iff_eq] at hverb
  exact hverb

/-- A verb is not empty, has the characters of a verb only, and stands for itself. -/
structure IsVerb (verb : String) : Prop where
  nonempty : verb.toList ≠ []
  chars : ∀ c ∈ verb.toList, isVerbChar c = true
  canonical : canonicalVerb verb.toList = verb

theorem isVerb_canonicalVerb (hne : word ≠ []) (hword : ∀ c ∈ word, isVerbChar c = true) :
    IsVerb (canonicalVerb word) := by
  unfold canonicalVerb
  dsimp only
  cases halias : aliases.lookup (String.ofList (Text.upper word)) with
  | some verb =>
      obtain ⟨before, behind, heq, -⟩ := List.lookup_eq_some_iff.mp halias
      have hmem : (String.ofList (Text.upper word), verb) ∈ aliases := by
        rw [heq]
        simp
      obtain ⟨⟨hne, hchars⟩, hcanonical⟩ := aliases_canonical _ hmem
      exact ⟨hne, hchars, hcanonical⟩
  -- a word that is no alias is put in upper case, and that is final
  | none =>
      rw [Option.getD_none]
      refine ⟨?_, ?_, ?_⟩
      · rw [String.toList_ofList]
        cases word with
        | nil => exact absurd rfl hne
        | cons c cs => simp [Text.upper, Text.upperChar_ne_nil]
      · intro d hd
        rw [String.toList_ofList] at hd
        obtain ⟨c, hc, hd⟩ := List.mem_flatMap.mp hd
        exact isVerbChar_of_mem_upperChar (hword c hc) hd
      · rw [String.toList_ofList, canonicalVerb, Text.upper_upper, halias]
        rfl

/-! ## Reading -/

/-- The verb is canonical and the arguments are trimmed. -/
structure IsCanonical (i : Instruction) : Prop where
  verb : IsVerb i.verb
  args : Text.trim i.args.toList = i.args.toList

theorem trim_arguments? {args : List Char} (h : arguments? cs = some args) :
    Text.trim args = args := by
  unfold arguments? at h
  split at h
  · cases h
    rfl
  · split at h
    · split at h <;> cases h <;> exact Text.trim_trim _
    · nomatch h

/-- What is read is canonical. -/
theorem isCanonical_of_parse (h : parse text = .ok i) : i.IsCanonical := by
  unfold parse at h
  dsimp only at h
  split at h
  · nomatch h
  · rename_i hverb
    split at h
    · nomatch h
    · rename_i args hargs
      cases h
      refine ⟨isVerb_canonicalVerb (by simpa using hverb) fun c hc => List.mem_takeWhile_imp hc, ?_⟩
      rw [String.toList_ofList]
      exact trim_arguments? hargs

/-! ## Reading what was written -/

/-- The arguments begin with a colon. -/
def BeginsWithColon (i : Instruction) : Prop := i.args.toList.head? = some ':'

instance (i : Instruction) : Decidable i.BeginsWithColon :=
  inferInstanceAs (Decidable (_ = _))

/-- What the line of an instruction is read as: without a colon at the start of the arguments. -/
def readBack (i : Instruction) : Instruction :=
  match i.args.toList with
  | ':' :: rest => { i with args := String.ofList (Text.trim rest) }
  | _ => i

theorem verb_readBack (i : Instruction) : i.readBack.verb = i.verb := by
  unfold readBack
  split <;> rfl

/-- The arguments stay as they are just if they do not begin with a colon. -/
theorem readBack_eq_self_iff (i : Instruction) : i.readBack = i ↔ ¬i.BeginsWithColon := by
  unfold readBack BeginsWithColon
  split
  · rename_i rest hargs
    rw [hargs]
    refine iff_of_false (fun hsame => ?_) (not_not_intro rfl)
    -- what is read is shorter, for want of the colon
    have hshorter := congrArg (fun i => i.args.toList.length) hsame
    simp only [String.toList_ofList, hargs, List.length_cons] at hshorter
    have hle := Text.length_trim_le rest
    omega
  · rename_i hcolon
    simp only [true_iff]
    intro hhead
    obtain ⟨rest, hargs⟩ := List.head?_eq_some_iff.mp hhead
    exact hcolon rest hargs

/-- A line has a blank behind its verb only if arguments follow. -/
theorem toList_line (h : i.IsCanonical) :
    i.line.toList = i.verb.toList ++ if i.args = "" then [] else ' ' :: i.args.toList := by
  have htext : (s!"{i.verb} {i.args}").toList = i.verb.toList ++ ' ' :: i.args.toList := by
    simp [toString]
  rw [line, Text.trimmedEnd, htext, String.toList_ofList]
  by_cases hargs : i.args = ""
  · have hverb := Text.not_endsBlank_of_plain fun c hc => isBlank_of_isVerbChar (h.verb.chars c hc)
    rw [if_pos hargs, hargs, String.toList_empty, Text.dropBlanksEnd_concat, if_pos (by decide),
      Text.dropBlanksEnd_eq_self_iff.mpr hverb, List.append_nil]
  · have hne : i.args.toList ≠ [] := by simpa using hargs
    rw [if_neg hargs, Text.dropBlanksEnd_eq_self_iff]
    -- the line ends as the arguments do, and these are trimmed
    rintro ⟨hline, hblank⟩
    have hlast : (i.verb.toList ++ ' ' :: i.args.toList).getLast hline =
        i.args.toList.getLast hne := by
      rw [List.getLast_append_of_ne_nil _ (List.cons_ne_nil _ _), List.getLast_cons hne]
    exact Text.not_endsBlank_trim i.args.toList
      (h.args.symm ▸ ⟨hne, hlast ▸ hblank⟩)

/-- Arguments behind a blank are read as they are, but for a colon at their start. -/
theorem arguments?_blank (h : i.IsCanonical) :
    arguments? (' ' :: i.args.toList) = some i.readBack.args.toList := by
  have hstart : Text.dropBlanks (' ' :: i.args.toList) = i.args.toList := by
    show Text.dropBlanks i.args.toList = i.args.toList
    refine Text.dropBlanks_eq_self ?_
    rw [← h.args]
    exact Text.beginsPlain_trim _
  have htaken : (Text.isBlank ' ' || ' ' == ':') = true := by decide
  rw [arguments?, if_pos htaken, hstart]
  unfold readBack
  cases hargs : i.args.toList with
  | nil =>
      dsimp only
      rw [hargs]
      rfl
  | cons c rest =>
      by_cases hcolon : c = ':'
      · subst hcolon
        show some (Text.trim rest) = some (String.ofList (Text.trim rest)).toList
        rw [String.toList_ofList]
      · have hplain : Text.trim (c :: rest) = c :: rest := hargs ▸ h.args
        simp [hcolon, hplain, hargs]

/-- A line is read with the verb that it was written with. -/
theorem parse_line (h : i.IsCanonical) : parse i.line = .ok i.readBack := by
  obtain ⟨rest, hline, hrest⟩ : ∃ rest, i.line.toList = i.verb.toList ++ rest ∧
      rest = if i.args = "" then [] else ' ' :: i.args.toList := ⟨_, toList_line h, rfl⟩
  -- no character of a verb follows the verb
  have hbehind : ∀ c ∈ rest.head?, isVerbChar c = false := by
    rw [hrest]
    split
    · nofun
    · rintro c ⟨⟩
      decide
  have hstart : Text.dropBlanks i.line.toList = i.verb.toList ++ rest := by
    rw [hline]
    refine Text.dropBlanks_eq_self fun c hc => ?_
    rw [List.head?_append_of_ne_nil _ h.verb.nonempty] at hc
    exact isBlank_of_isVerbChar (h.verb.chars c (List.mem_of_mem_head? hc))
  have htake : (i.verb.toList ++ rest).takeWhile isVerbChar = i.verb.toList := by
    rw [List.takeWhile_append_of_pos h.verb.chars]
    cases rest with
    | nil => rw [List.takeWhile_nil, List.append_nil]
    | cons c cs => simp [hbehind c rfl]
  have hdrop : (i.verb.toList ++ rest).dropWhile isVerbChar = rest := by
    rw [List.dropWhile_append_of_pos h.verb.chars]
    cases rest with
    | nil => rfl
    | cons c cs => simp [hbehind c rfl]
  have hargs : arguments? rest = some i.readBack.args.toList := by
    rw [hrest]
    split
    · rename_i hnone
      have hsame : i.readBack.args = i.args := by simp [readBack, hnone]
      rw [hsame, hnone]
      rfl
    · exact arguments?_blank h
  unfold parse
  dsimp only
  rw [hstart, htake, hdrop, hargs, if_neg (by simpa using h.verb.nonempty), h.verb.canonical]
  dsimp only
  rw [String.ofList_toList, ← i.verb_readBack]

end Instruction

end PointAndClick
