import Mathlib.Data.List.DropRight
import PointAndClick.Text.Blank

/-!
# Trimming and words

Trimming takes blanks from the two ends of a text. Of one that begins with no blank it takes those
at the end (`trim_of_beginsPlain`), and nothing if it does not end in one either
(`dropBlanksEnd_eq_self_iff`).

The words of a text, one behind the other, are the text without its blanks (`flatten_wordsOf`). A
blank ends a word, so the words before it are the same whatever follows (`wordsOf_append`).
-/

set_option autoImplicit false

namespace PointAndClick.Text

variable {cs ds : List Char} {c : Char}

/-- The text begins with a character that is no blank, unless it is empty. -/
def BeginsPlain (cs : List Char) : Prop := ∀ c ∈ cs.head?, isBlank c = false

/-- The last character of a text is a blank. -/
def EndsBlank (cs : List Char) : Prop := ∃ h : cs ≠ [], isBlank (cs.getLast h) = true

theorem dropBlanksEnd_concat (cs : List Char) (c : Char) :
    dropBlanksEnd (cs ++ [c]) = if isBlank c then dropBlanksEnd cs else cs ++ [c] := by
  induction cs with
  | nil => simp [dropBlanksEnd]
  | cons d cs ih =>
      rw [List.cons_append, dropBlanksEnd, ih]
      cases hc : isBlank c with
      | true => simp [dropBlanksEnd]
      | false => cases cs <;> simp

/-- Blanks are dropped from the end one by one. -/
theorem dropBlanksEnd_eq_rdropWhile (cs : List Char) :
    dropBlanksEnd cs = cs.rdropWhile isBlank := by
  induction cs using List.reverseRecOn with
  | nil => rfl
  | append_singleton cs c ih => rw [dropBlanksEnd_concat, List.rdropWhile_concat, ih]

theorem dropBlanksEnd_eq_self_iff : dropBlanksEnd cs = cs ↔ ¬EndsBlank cs := by
  rw [dropBlanksEnd_eq_rdropWhile, List.rdropWhile_eq_self_iff]
  simp [EndsBlank]

theorem dropBlanksEnd_isPrefix (cs : List Char) : dropBlanksEnd cs <+: cs := by
  rw [dropBlanksEnd_eq_rdropWhile]
  exact List.rdropWhile_prefix isBlank cs

/-- No blank is left at the end. -/
theorem not_endsBlank_dropBlanksEnd (cs : List Char) : ¬EndsBlank (dropBlanksEnd cs) := by
  rintro ⟨hne, hblank⟩
  rw [dropBlanksEnd_eq_rdropWhile] at hne
  simp only [dropBlanksEnd_eq_rdropWhile] at hblank
  exact List.rdropWhile_last_not isBlank cs hne hblank

theorem dropBlanks_eq_self (h : BeginsPlain cs) : dropBlanks cs = cs := by
  cases cs with
  | nil => rfl
  | cons c cs => exact dropBlanks_cons_of_not_blank (h c rfl)

theorem dropBlanks_append {gap : List Char} (hgap : ∀ c ∈ gap, isBlank c = true)
    (h : BeginsPlain cs) : dropBlanks (gap ++ cs) = cs := by
  rw [dropBlanks, List.dropWhile_append_of_pos hgap]
  exact dropBlanks_eq_self h

theorem beginsPlain_dropBlanks (cs : List Char) : BeginsPlain (dropBlanks cs) := by
  intro c hc
  have h := List.head?_dropWhile_not isBlank cs
  unfold dropBlanks at hc
  rw [hc] at h
  simpa using h

/-- Of a text that begins with no blank only the end is trimmed. -/
theorem trim_of_beginsPlain (h : BeginsPlain cs) : trim cs = dropBlanksEnd cs := by
  unfold trim
  rw [dropBlanks_eq_self h]

theorem beginsPlain_of_isPrefix {ds : List Char} (h : BeginsPlain cs) (hpart : ds <+: cs) :
    BeginsPlain ds := by
  obtain ⟨rest, rfl⟩ := hpart
  intro c hc
  refine h c ?_
  rw [List.head?_append]
  simp [Option.mem_def.mp hc]

theorem beginsPlain_trim (cs : List Char) : BeginsPlain (trim cs) :=
  beginsPlain_of_isPrefix (beginsPlain_dropBlanks cs) (dropBlanksEnd_isPrefix _)

theorem not_endsBlank_trim (cs : List Char) : ¬EndsBlank (trim cs) :=
  not_endsBlank_dropBlanksEnd _

theorem trim_trim (cs : List Char) : trim (trim cs) = trim cs := by
  rw [trim_of_beginsPlain (beginsPlain_trim cs), dropBlanksEnd_eq_self_iff]
  exact not_endsBlank_trim cs

theorem length_trim_le (cs : List Char) : (trim cs).length ≤ cs.length :=
  Nat.le_trans (dropBlanksEnd_isPrefix _).length_le (List.dropWhile_suffix _).length_le

theorem not_endsBlank_of_plain (h : ∀ c ∈ cs, isBlank c = false) : ¬EndsBlank cs := by
  rintro ⟨hne, hblank⟩
  rw [h _ (List.getLast_mem hne)] at hblank
  nomatch hblank

/-- A text without blanks is left as it is. -/
theorem trim_eq_self (h : ∀ c ∈ cs, isBlank c = false) : trim cs = cs := by
  have hbegins : BeginsPlain cs := fun c hc => h c (List.mem_of_mem_head? hc)
  rw [trim_of_beginsPlain hbegins, dropBlanksEnd_eq_self_iff.mpr (not_endsBlank_of_plain h)]

theorem mem_dropWhile_of_not {p : Char → Bool} {c : Char} (hc : c ∈ cs) (hplain : p c = false) :
    c ∈ cs.dropWhile p := by
  rw [← List.takeWhile_append_dropWhile (p := p) (l := cs)] at hc
  rcases List.mem_append.mp hc with htaken | hleft
  · rw [List.mem_takeWhile_imp htaken] at hplain
    nomatch hplain
  · exact hleft

theorem dropBlanks_append_of_plain (h : ∃ c ∈ cs, isBlank c = false) (ds : List Char) :
    dropBlanks (cs ++ ds) = dropBlanks cs ++ ds := by
  obtain ⟨c, hc, hplain⟩ := h
  have hleft : (cs.dropWhile isBlank).isEmpty = false := by
    rw [List.isEmpty_eq_false_iff_exists_mem]
    exact ⟨c, mem_dropWhile_of_not hc hplain⟩
  rw [dropBlanks, List.dropWhile_append, hleft]
  rfl

theorem exists_dropBlanks_eq_cons (h : ∃ c ∈ cs, isBlank c = false) :
    ∃ d ds, dropBlanks cs = d :: ds ∧ isBlank d = false := by
  obtain ⟨c, hc, hplain⟩ := h
  cases hstart : dropBlanks cs with
  | nil =>
      have hmem : c ∈ dropBlanks cs := mem_dropWhile_of_not hc hplain
      rw [hstart] at hmem
      nomatch hmem
  | cons d ds => exact ⟨d, ds, rfl, beginsPlain_dropBlanks cs d (by rw [hstart]; rfl)⟩

/-- Trimming takes nothing but blanks. -/
theorem mem_trim {c : Char} (hc : c ∈ cs) (hplain : isBlank c = false) : c ∈ trim cs := by
  unfold trim
  rw [dropBlanksEnd_eq_rdropWhile, List.rdropWhile, List.mem_reverse]
  refine mem_dropWhile_of_not ?_ hplain
  rw [List.mem_reverse]
  exact mem_dropWhile_of_not hc hplain

/-! ## Words -/

theorem ne_nil_of_mem_wordsOf {w : List Char} (h : w ∈ wordsOf cs) : w ≠ [] := by
  fun_induction wordsOf cs generalizing w with
  | case1 => simp at h
  | case2 c cs hc ih => exact ih h
  | case3 c hc => simp_all
  | case4 c hc d ds hd ih =>
      rcases List.mem_cons.mp h with rfl | hw
      · exact List.cons_ne_nil _ _
      · exact ih hw
  | case5 c hc d ds hd heq ih => simp_all
  | case6 c hc d ds hd v vs heq ih =>
      simp only [heq] at h
      rcases List.mem_cons.mp h with rfl | hw
      · exact List.cons_ne_nil _ _
      · exact ih (by rw [heq]; exact List.mem_cons_of_mem _ hw)

theorem flatten_wordsOf (cs : List Char) : (wordsOf cs).flatten = cs.filter (!isBlank ·) := by
  fun_induction wordsOf cs with
  | case1 => rfl
  | case2 c cs hc ih => simp [hc, ih]
  | case3 c hc => simp [hc]
  | case4 c hc d ds hd ih => simp [hc, ih]
  | case5 c hc d ds hd heq ih | case6 c hc d ds hd w ws heq ih =>
      rw [List.filter_cons_of_pos (by simp [hc]), ← ih, heq]
      rfl

theorem mem_of_mem_wordsOf {w : List Char} (h : w ∈ wordsOf cs) (hc : c ∈ w) :
    c ∈ cs ∧ isBlank c = false := by
  have hmem : c ∈ (wordsOf cs).flatten := List.mem_flatten.mpr ⟨w, h, hc⟩
  rw [flatten_wordsOf] at hmem
  simpa using List.mem_filter.mp hmem

theorem isBlank_of_mem_wordsOf {w : List Char} (h : w ∈ wordsOf cs) :
    ∀ c ∈ w, isBlank c = false := fun _ hc => (mem_of_mem_wordsOf h hc).2

/-- A text with a character that is no blank has a word. -/
theorem wordsOf_ne_nil (h : ∃ c ∈ cs, isBlank c = false) : wordsOf cs ≠ [] := by
  obtain ⟨c, hc, hplain⟩ := h
  intro hnil
  have hmem : c ∈ cs.filter (!isBlank ·) := List.mem_filter.mpr ⟨hc, by simp [hplain]⟩
  rw [← flatten_wordsOf, hnil] at hmem
  nomatch hmem

/-- A text without blanks is one word. -/
theorem wordsOf_eq_singleton (hne : cs ≠ []) (h : ∀ c ∈ cs, isBlank c = false) :
    wordsOf cs = [cs] := by
  fun_induction wordsOf cs with
  | case1 => exact absurd rfl hne
  | case2 c cs hc ih => simp [h c List.mem_cons_self] at hc
  | case3 c hc => rfl
  | case4 c hc d ds hd ih => simp [h d (by simp)] at hd
  | case5 c hc d ds hd heq ih | case6 c hc d ds hd w ws heq ih =>
      have hrest := ih (List.cons_ne_nil d ds) fun e he => h e (List.mem_cons_of_mem c he)
      rw [hrest]

theorem wordsOf_cons_of_blank (h : isBlank c = true) : wordsOf (c :: cs) = wordsOf cs :=
  if_pos h

/-- A character before a blank ends a word. -/
theorem wordsOf_cons_cons_of_blank {d : Char} (hc : ¬isBlank c = true) (hd : isBlank d = true) :
    wordsOf (c :: d :: cs) = [c] :: wordsOf (d :: cs) :=
  (if_neg hc).trans (if_pos hd)

/-- A character before a word belongs to it. -/
theorem wordsOf_cons_cons_of_plain {d : Char} {w : List Char} {ws : List (List Char)}
    (hc : ¬isBlank c = true) (hd : ¬isBlank d = true) (h : wordsOf (d :: cs) = w :: ws) :
    wordsOf (c :: d :: cs) = (c :: w) :: ws := by
  refine (if_neg hc).trans ((if_neg hd).trans ?_)
  rw [h]

/-- Where a blank follows, the words of a text are all there. -/
theorem wordsOf_append (h : ∀ c ∈ ds.head?, isBlank c = true) :
    wordsOf (cs ++ ds) = wordsOf cs ++ wordsOf ds := by
  fun_induction wordsOf cs with
  | case1 => rfl
  | case2 c cs hc ih => rw [List.cons_append, wordsOf_cons_of_blank hc, ih]
  | case3 c hc =>
      cases ds with
      | nil => exact wordsOf_eq_singleton (List.cons_ne_nil c []) (by simpa using hc)
      | cons d ds => exact wordsOf_cons_cons_of_blank hc (h d rfl)
  | case4 c hc d rest hd ih =>
      exact (wordsOf_cons_cons_of_blank hc hd).trans (congrArg ([c] :: ·) ih)
  | case5 c hc d rest hd heq ih =>
      exact absurd heq (wordsOf_ne_nil ⟨d, List.mem_cons_self, by simpa using hd⟩)
  | case6 c hc d rest hd w ws heq ih =>
      rw [heq] at ih ⊢
      exact wordsOf_cons_cons_of_plain hc hd ih

theorem wordsOf_cons_of_plain (h : isBlank c = false) :
    wordsOf (c :: cs) = takeWord (c :: cs) :: wordsOf (dropWord (c :: cs)) := by
  have hsplit : takeWord (c :: cs) ++ dropWord (c :: cs) = c :: cs :=
    List.takeWhile_append_dropWhile
  have hrest : ∀ d ∈ (dropWord (c :: cs)).head?, isBlank d = true := by
    intro d hd
    have hstart := List.head?_dropWhile_not (!isBlank ·) (c :: cs)
    unfold dropWord at hd
    rw [hd] at hstart
    simpa using hstart
  have hword : wordsOf (takeWord (c :: cs)) = [takeWord (c :: cs)] := by
    refine wordsOf_eq_singleton ?_ fun d hd => ?_
    · simp [takeWord, h]
    · simpa using List.mem_takeWhile_imp hd
  calc wordsOf (c :: cs) = wordsOf (takeWord (c :: cs) ++ dropWord (c :: cs)) := by rw [hsplit]
    _ = takeWord (c :: cs) :: wordsOf (dropWord (c :: cs)) := by
        rw [wordsOf_append hrest, hword]
        rfl

theorem takeWord_append (h : ∀ c ∈ ds.head?, isBlank c = true) :
    takeWord (cs ++ ds) = takeWord cs := by
  have hnone : takeWord ds = [] := by
    cases ds with
    | nil => rfl
    | cons d ds => simp [takeWord, h d rfl]
  unfold takeWord at hnone ⊢
  rw [List.takeWhile_append, hnone, List.append_nil]
  split
  · rename_i hall
    exact ((List.takeWhile_prefix _).eq_of_length hall).symm
  · rfl

theorem takeWord_eq_self (h : ∀ c ∈ cs, isBlank c = false) : takeWord cs = cs :=
  List.takeWhile_eq_self_iff.mpr fun c hc => by simp [h c hc]

theorem wordsOf_dropBlanks (cs : List Char) : wordsOf (dropBlanks cs) = wordsOf cs := by
  induction cs with
  | nil => rfl
  | cons c cs ih =>
      cases hc : isBlank c with
      | true =>
          have hdrop : dropBlanks (c :: cs) = dropBlanks cs := by
            simp [dropBlanks, hc]
          rw [hdrop, wordsOf_cons_of_blank hc, ih]
      | false => rw [dropBlanks_cons_of_not_blank hc]

/-- What blanks or the end of the text follow is a word of the text. -/
theorem mem_wordsOf_of_append_eq {word rest more : List Char} (hcs : ∃ c ∈ cs, isBlank c = false)
    (hmore : ∀ c ∈ more.head?, isBlank c = true) (hword : ∀ c ∈ word, isBlank c = false)
    (hrest : ∀ c ∈ rest.head?, isBlank c = true) (heq : dropBlanks cs ++ more = word ++ rest) :
    word ∈ wordsOf cs := by
  have htake : takeWord (dropBlanks cs) = word := by
    rw [← takeWord_append hmore, heq, takeWord_append hrest, takeWord_eq_self hword]
  obtain ⟨d, ds, hstart, hd⟩ := exists_dropBlanks_eq_cons hcs
  rw [← wordsOf_dropBlanks, hstart, wordsOf_cons_of_plain hd, ← hstart, htake]
  exact List.mem_cons_self

end PointAndClick.Text
