/-!
# Blanks and words

Which characters separate words, trimming, and the cutting of a text into words. The functions
work on lists of characters; `words`, `trimmed` and their like are the same for strings.
-/

set_option autoImplicit false

namespace PointAndClick.Text

/-- The white space of Unicode, with the four separators U+001C to U+001F. -/
def isBlank (c : Char) : Bool :=
  let n := c.toNat
  (0x09 ≤ n && n ≤ 0x0D) || (0x1C ≤ n && n ≤ 0x20) || n == 0x85 || n == 0xA0 || n == 0x1680 ||
    (0x2000 ≤ n && n ≤ 0x200A) || n == 0x2028 || n == 0x2029 || n == 0x202F || n == 0x205F ||
    n == 0x3000

/-! ## Trimming -/

/-- The text from its first character that is no blank. -/
def dropBlanks (cs : List Char) : List Char :=
  cs.dropWhile isBlank

/-- The text up to its last character that is no blank. -/
def dropBlanksEnd : List Char → List Char
  | [] => []
  | c :: cs =>
      match dropBlanksEnd cs with
      | [] => if isBlank c then [] else [c]
      | d :: ds => c :: d :: ds

/-- The text without the blanks around it. -/
def trim (cs : List Char) : List Char :=
  dropBlanksEnd (dropBlanks cs)

/-- `trim` on strings. -/
def trimmed (s : String) : String :=
  String.ofList (trim s.toList)

/-- `dropBlanksEnd` on strings. -/
def trimmedEnd (s : String) : String :=
  String.ofList (dropBlanksEnd s.toList)

/-! ## Words -/

/-- The characters up to the first blank. -/
def takeWord (cs : List Char) : List Char :=
  cs.takeWhile (!isBlank ·)

/-- The characters from the first blank on. -/
def dropWord (cs : List Char) : List Char :=
  cs.dropWhile (!isBlank ·)

/-- The maximal runs of characters that are no blanks. -/
def wordsOf : List Char → List (List Char)
  | [] => []
  | c :: cs =>
      if isBlank c then wordsOf cs
      else
        match cs with
        | [] => [[c]]
        | d :: _ =>
            if isBlank d then [c] :: wordsOf cs
            else
              match wordsOf cs with
              | [] => [[c]]
              | w :: ws => (c :: w) :: ws

/-- The words of a string. -/
def words (s : String) : List String :=
  (wordsOf s.toList).map String.ofList

/-- The first word and what follows the blanks behind it, which keeps its own blanks. Both parts
are empty if there is no word. -/
def cutWord (cs : List Char) : List Char × List Char :=
  let start := dropBlanks cs
  (takeWord start, dropBlanks (dropWord start))

/-- `cutWord` on strings. -/
def firstWord (s : String) : String × String :=
  let parts := cutWord s.toList
  (String.ofList parts.1, String.ofList parts.2)

/-! ## What trimming leaves -/

theorem dropBlanks_cons_of_not_blank {c : Char} {cs : List Char} (h : isBlank c = false) :
    dropBlanks (c :: cs) = c :: cs := by
  simp [dropBlanks, h]

theorem dropBlanksEnd_eq_nil_iff {cs : List Char} :
    dropBlanksEnd cs = [] ↔ ∀ c ∈ cs, isBlank c = true := by
  induction cs with
  | nil => simp [dropBlanksEnd]
  | cons c cs ih =>
      unfold dropBlanksEnd
      cases h : dropBlanksEnd cs with
      | nil =>
          have all := ih.1 h
          by_cases hc : isBlank c <;> simp [hc]
          exact all
      | cons d ds =>
          have : ¬ ∀ c ∈ cs, isBlank c = true := fun all => by simp [ih.2 all] at h
          simp only [reduceCtorEq, List.mem_cons, forall_eq_or_imp, false_iff]
          exact fun all => this all.2

end PointAndClick.Text
