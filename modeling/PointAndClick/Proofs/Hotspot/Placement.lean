import Mathlib.Data.List.Basic
import PointAndClick.Hotspot.Placement
import PointAndClick.Proofs.Text.Numeral

/-!
# Placed images read back

A path of some words and up to three integers behind it, written with blanks between them, are read
back, provided that the path cannot be taken to end earlier: there are three integers, or the path
is one word, or its last word is no integer (`parse_eq_placed_iff`). An integer that has more digits
than a number may have is no integer to the reader, and becomes part of the path.
-/

set_option autoImplicit false

namespace PointAndClick

/-! ## Words with blanks between them -/

namespace Text

/-- A text consists of some words, with blanks between them and perhaps around them. -/
inductive Spaced : List (List Char) → List Char → Prop
  | nil {gap : List Char} (blank : ∀ c ∈ gap, isBlank c = true) : Spaced [] gap
  | cons {gap word rest : List Char} {words : List (List Char)}
      (blank : ∀ c ∈ gap, isBlank c = true) (nonempty : word ≠ [])
      (plain : ∀ c ∈ word, isBlank c = false) (ends : ∀ c ∈ rest.head?, isBlank c = true)
      (behind : Spaced words rest) : Spaced (word :: words) (gap ++ (word ++ rest))

theorem wordsOf_gap_append {gap : List Char} (hgap : ∀ c ∈ gap, isBlank c = true)
    (cs : List Char) : wordsOf (gap ++ cs) = wordsOf cs := by
  induction gap with
  | nil => rfl
  | cons c gap ih =>
      rw [List.cons_append, wordsOf_cons_of_blank (hgap c List.mem_cons_self),
        ih fun d hd => hgap d (List.mem_cons_of_mem c hd)]

theorem Spaced.wordsOf_eq {words : List (List Char)} {cs : List Char} (h : Spaced words cs) :
    wordsOf cs = words := by
  induction h with
  | @nil gap blank =>
      have hgap := wordsOf_gap_append blank []
      rwa [List.append_nil] at hgap
  | cons blank nonempty plain ends behind ih =>
      rw [wordsOf_gap_append blank, wordsOf_append ends, wordsOf_eq_singleton nonempty plain, ih]
      rfl

/-- A word stands first, with no blanks before it. -/
theorem Spaced.cons_word {word rest : List Char} {words : List (List Char)} (nonempty : word ≠ [])
    (plain : ∀ c ∈ word, isBlank c = false) (ends : ∀ c ∈ rest.head?, isBlank c = true)
    (behind : Spaced words rest) : Spaced (word :: words) (word ++ rest) :=
  .cons (List.forall_mem_nil _) nonempty plain ends behind

theorem Spaced.cons_blank {words : List (List Char)} {c : Char} {cs : List Char}
    (h : Spaced words cs) (hc : isBlank c = true) : Spaced words (c :: cs) := by
  cases h with
  | nil blank => exact .nil (List.forall_mem_cons.mpr ⟨hc, blank⟩)
  | cons blank nonempty plain ends behind =>
      exact .cons (List.forall_mem_cons.mpr ⟨hc, blank⟩) nonempty plain ends behind

theorem Spaced.cons_plain {word : List Char} {words : List (List Char)} {c d : Char}
    {cs : List Char} (h : Spaced (word :: words) (d :: cs)) (hc : isBlank c = false)
    (hd : isBlank d = false) : Spaced ((c :: word) :: words) (c :: d :: cs) := by
  generalize htext : d :: cs = text at h
  cases h with
  | @cons gap word rest words blank nonempty plain ends behind =>
      cases gap with
      | nil =>
          have hplain : ∀ e ∈ c :: word, isBlank e = false := List.forall_mem_cons.mpr ⟨hc, plain⟩
          exact .cons_word (List.cons_ne_nil c word) hplain ends behind
      -- the text begins with a character that is no blank
      | cons e gap =>
          cases htext
          rw [blank d List.mem_cons_self] at hd
          nomatch hd

/-- Every text consists of its words. -/
theorem spaced_wordsOf (cs : List Char) : Spaced (wordsOf cs) cs := by
  have hnone : Spaced [] [] := .nil (List.forall_mem_nil _)
  fun_induction wordsOf cs with
  | case1 => exact hnone
  | case2 c cs hc ih => exact ih.cons_blank hc
  | case3 c hc => exact .cons_word (List.cons_ne_nil c []) (by simpa using hc) (by simp) hnone
  | case4 c hc d ds hd ih =>
      exact .cons_word (List.cons_ne_nil c []) (by simpa using hc) (by simpa using hd) ih
  | case5 c hc d ds hd heq ih =>
      exact absurd heq (wordsOf_ne_nil ⟨d, List.mem_cons_self, by simpa using hd⟩)
  | case6 c hc d ds hd w ws heq ih =>
      rw [heq] at ih ⊢
      exact ih.cons_plain (by simpa using hc) (by simpa using hd)

/-- The words of a text are those that it consists of. -/
theorem spaced_iff {words : List (List Char)} {cs : List Char} :
    Spaced words cs ↔ wordsOf cs = words :=
  ⟨Spaced.wordsOf_eq, fun h => h ▸ spaced_wordsOf cs⟩

theorem writeNumeral_ne_nil (n : Int) : writeNumeral n ≠ [] := by
  unfold writeNumeral
  split
  · exact List.cons_ne_nil _ _
  · exact Nat.toDigits_ne_nil

theorem readNumeral?_writeNumeral {n : Int} (h : n.natAbs < 10 ^ maxDigits) :
    readNumeral? (writeNumeral n) = some n := by
  rw [readNumeral?, trim_eq_self fun c hc => isBlank_of_mem_writeNumeral hc,
    readSigned?_writeNumeral h]

end Text

namespace Placement

variable {words : List (List Char)} {numbers : List Int} {count : Nat}

/-- The image at a path of some words, single blanks between them, that is placed by up to three
integers. -/
def placed (words : List (List Char)) (numbers : List Int) : Placement where
  path := String.ofList ([' '].intercalate words)
  x := numbers.getD 0 0
  y := numbers.getD 1 0
  z := numbers.getD 2 0

theorem mem_placed (words : List (List Char)) {n : Int} (hcount : numbers.length ≤ 3)
    (hn : n ∈ numbers) :
    n = (placed words numbers).x ∨ n = (placed words numbers).y ∨ n = (placed words numbers).z := by
  match numbers, hcount with
  | [], _ => nomatch hn
  | [x], _ => simp_all [placed]
  | [x, y], _ => rcases List.mem_pair.mp hn with rfl | rfl <;> simp [placed]
  | [x, y, z], _ => simpa [placed] using hn

/-! ## Taking integers from the end -/

theorem joinWords_eq_intercalate (words : List (List Char)) :
    joinWords words = [' '].intercalate words := by
  fun_induction joinWords words with
  | case1 => rfl
  | case2 word => simp
  | case3 word words hne ih =>
      obtain ⟨next, rest, rfl⟩ := List.exists_cons_of_ne_nil hne
      rw [ih, List.intercalate_cons_cons, List.append_assoc]
      rfl

theorem spaced_joinWords (h : ∀ w ∈ words, w ≠ [] ∧ ∀ c ∈ w, Text.isBlank c = false) :
    Text.Spaced words (joinWords words) := by
  have hnone : Text.Spaced [] [] := .nil (List.forall_mem_nil _)
  fun_induction joinWords words with
  | case1 => exact hnone
  | case2 word =>
      obtain ⟨hword, hplain⟩ := h word List.mem_cons_self
      simpa using Text.Spaced.cons_word hword hplain (by simp) hnone
  | case3 word words hne ih =>
      obtain ⟨hword, hplain⟩ := h word List.mem_cons_self
      have hrest := (ih fun w hw => h w (List.mem_cons_of_mem word hw)).cons_blank (c := ' ') rfl
      exact .cons_word hword hplain (by simp [Text.isBlank]) hrest

/-- What is put together from the words and the integers that were told apart. -/
theorem parse_eq_placed {text : String} {left : List (List Char)}
    (h : splitNumbers 3 (Text.wordsOf text.toList).reverse [] = (left, numbers)) :
    parse text = placed left.reverse numbers := by
  unfold parse placed
  rw [h, ← joinWords_eq_intercalate]
  rcases numbers with _ | ⟨x, _ | ⟨y, _ | ⟨z, more⟩⟩⟩ <;> rfl

/-- Integers that are written at the end are all taken, as long as there may be so many and a word
is left before them. -/
theorem splitNumbers_numerals (hwords : words ≠ []) (hcount : numbers.length ≤ count)
    (hfew : ∀ n ∈ numbers, n.natAbs < 10 ^ Text.maxDigits) (taken : List Int) :
    splitNumbers count (words ++ numbers.map Text.writeNumeral).reverse taken =
      splitNumbers (count - numbers.length) words.reverse (numbers ++ taken) := by
  induction numbers using List.reverseRecOn generalizing count taken with
  | nil => simp
  | append_singleton numbers n ih =>
      rw [List.length_append, List.length_singleton] at hcount
      obtain ⟨count, rfl⟩ : ∃ k, count = k + 1 := ⟨count - 1, by omega⟩
      -- a word is left before the last integer
      obtain ⟨next, rest, hrest⟩ := List.exists_cons_of_ne_nil (l :=
        (words ++ numbers.map Text.writeNumeral).reverse) (by simp [hwords])
      have hlast : Text.readNumeral? (Text.writeNumeral n) = some n :=
        Text.readNumeral?_writeNumeral (hfew n (by simp))
      rw [List.map_append, List.map_singleton, ← List.append_assoc, List.reverse_append,
        List.reverse_singleton, List.singleton_append, hrest, splitNumbers, hlast, ← hrest]
      simp only
      rw [ih (by omega) fun m hm => hfew m (List.mem_append_left _ hm)]
      simp

/-- No more integers are taken where none may be, where one word is left, and behind a word that is
no integer. -/
theorem splitNumbers_stops (hwords : words ≠ [])
    (hend : count = 0 ∨ words.length = 1 ∨ Text.readNumeral? (words.getLast hwords) = none)
    (taken : List Int) : splitNumbers count words.reverse taken = (words.reverse, taken) := by
  obtain ⟨before, last, rfl⟩ : ∃ before last, words = before ++ [last] :=
    ⟨_, _, (List.dropLast_append_getLast hwords).symm⟩
  rw [List.reverse_append, List.reverse_singleton, List.singleton_append]
  rw [List.getLast_append_singleton] at hend
  cases count with
  | zero => rfl
  | succ count =>
      cases hbefore : before.reverse with
      | nil => rfl
      -- the last word is not the only one
      | cons next rest =>
          have hnone : Text.readNumeral? last = none := by
            rcases hend with hzero | hone | hnone
            · nomatch hzero
            · simp_all
            · exact hnone
          rw [splitNumbers, hnone]

/-! ## How large the integers can be -/

theorem natAbs_lt_of_mem_splitNumbers {taken : List Int}
    (htaken : ∀ n ∈ taken, n.natAbs < 10 ^ Text.maxDigits) :
    ∀ n ∈ (splitNumbers count words taken).2, n.natAbs < 10 ^ Text.maxDigits := by
  fun_induction splitNumbers count words taken with
  | case1 taken count word next rest n hn ih =>
      exact ih (List.forall_mem_cons.mpr ⟨Text.natAbs_lt_of_readSigned? hn, htaken⟩)
  | case2 => exact htaken
  | case3 => exact htaken

theorem natAbs_getD_lt {bound : Nat} (hpos : 0 < bound) (h : ∀ n ∈ numbers, n.natAbs < bound)
    (i : Nat) : (numbers.getD i 0).natAbs < bound := by
  rw [List.getD_eq_getElem?_getD]
  cases hi : numbers[i]? with
  | none => exact hpos
  | some n => exact h n (List.mem_of_getElem? hi)

/-- No image is placed by an integer that has more digits than a number may have. -/
theorem natAbs_parse_lt (text : String) :
    (parse text).x.natAbs < 10 ^ Text.maxDigits ∧ (parse text).y.natAbs < 10 ^ Text.maxDigits ∧
      (parse text).z.natAbs < 10 ^ Text.maxDigits := by
  have hnumbers : ∀ n ∈ (splitNumbers 3 (Text.wordsOf text.toList).reverse []).2,
      n.natAbs < 10 ^ Text.maxDigits :=
    natAbs_lt_of_mem_splitNumbers (List.forall_mem_nil _)
  have hpos : 0 < 10 ^ Text.maxDigits := Nat.pow_pos (by decide)
  rw [parse_eq_placed (Prod.eta _).symm]
  exact ⟨natAbs_getD_lt hpos hnumbers 0, natAbs_getD_lt hpos hnumbers 1,
    natAbs_getD_lt hpos hnumbers 2⟩

/-! ## Reading back -/

/-- A path and the integers behind it are read back just when none of these has more digits than a
number may have. -/
theorem parse_eq_placed_iff {text : String} (hwords : words ≠ []) (hcount : numbers.length ≤ 3)
    (hend : numbers.length < 3 →
      words.length = 1 ∨ Text.readNumeral? (words.getLast hwords) = none)
    (htext : Text.Spaced (words ++ numbers.map Text.writeNumeral) text.toList) :
    parse text = placed words numbers ↔ ∀ n ∈ numbers, n.natAbs < 10 ^ Text.maxDigits := by
  constructor
  · intro hparse
    obtain ⟨hx, hy, hz⟩ := natAbs_parse_lt text
    rw [hparse] at hx hy hz
    intro n hn
    rcases mem_placed words hcount hn with rfl | rfl | rfl
    · exact hx
    · exact hy
    · exact hz
  · intro hfew
    have hstops : 3 - numbers.length = 0 ∨ words.length = 1 ∨
        Text.readNumeral? (words.getLast hwords) = none := by
      by_cases hthree : numbers.length < 3
      · exact .inr (hend hthree)
      · exact .inl (by omega)
    have hsplit : splitNumbers 3 (Text.wordsOf text.toList).reverse [] =
        (words.reverse, numbers) := by
      rw [htext.wordsOf_eq, splitNumbers_numerals hwords hcount hfew, List.append_nil,
        splitNumbers_stops hwords hstops]
    rw [parse_eq_placed hsplit, List.reverse_reverse]

/-- Behind three integers a path may end in a fourth one. -/
theorem parse_eq_placed_iff_numbered :
    Text.Spaced (["my".toList, "door".toList, "7".toList] ++ [10, -20, 3].map Text.writeNumeral)
        "my  door\t7 10 -20 3".toList ∧
      parse "my  door\t7 10 -20 3" = { path := "my door 7", x := 10, y := -20, z := 3 } := by
  have htext : Text.Spaced
      (["my".toList, "door".toList, "7".toList] ++ [10, -20, 3].map Text.writeNumeral)
      "my  door\t7 10 -20 3".toList := Text.spaced_iff.mpr (by decide)
  refine ⟨htext, (parse_eq_placed_iff (by decide) (by decide) (by decide) htext).mpr ?_⟩
  have hpow : 10 ^ 2 ≤ 10 ^ Text.maxDigits := Nat.pow_le_pow_right (by decide) (by decide)
  intro n hn
  have hn : n.natAbs < 10 ^ 2 := by
    revert n
    decide
  exact Nat.lt_of_lt_of_le hn hpow

/-- The least integer of 4301 digits. -/
def firstRefused : Int := (10 ^ Text.maxDigits : Nat)

/-- Behind a path of one word, an integer of 4301 digits is not read back. -/
theorem not_forall_parse_eq_placed :
    ¬∀ (words : List (List Char)) (numbers : List Int) (text : String) (hwords : words ≠ []),
      numbers.length ≤ 3 →
      (numbers.length < 3 →
        words.length = 1 ∨ Text.readNumeral? (words.getLast hwords) = none) →
      Text.Spaced (words ++ numbers.map Text.writeNumeral) text.toList →
        parse text = placed words numbers := by
  intro hall
  have hplain : ∀ w ∈ [['a'], Text.writeNumeral firstRefused],
      w ≠ [] ∧ ∀ c ∈ w, Text.isBlank c = false := by
    refine List.forall_mem_cons.mpr ⟨?_, List.forall_mem_singleton.mpr ?_⟩
    · exact ⟨List.cons_ne_nil _ _, List.forall_mem_singleton.mpr rfl⟩
    · exact ⟨Text.writeNumeral_ne_nil _, fun c hc => Text.isBlank_of_mem_writeNumeral hc⟩
  have htext := spaced_joinWords hplain
  rw [← String.toList_ofList (l := joinWords _)] at htext
  have hparse := hall [['a']] [firstRefused] _ (by decide) (by decide) (fun _ => .inl rfl) htext
  have hx := (natAbs_parse_lt (String.ofList
    (joinWords [['a'], Text.writeNumeral firstRefused]))).1
  rw [hparse] at hx
  have habs : firstRefused.natAbs = 10 ^ Text.maxDigits := Int.natAbs_natCast _
  exact Nat.lt_irrefl _ (habs ▸ hx)

end Placement

end PointAndClick
