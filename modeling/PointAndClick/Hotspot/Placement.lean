import PointAndClick.Text.Numeral

/-!
# Placed images

The text of an image command: a path, then up to three integers that place the image. The path may
hold blanks; runs of them become single ones.
-/

set_option autoImplicit false

namespace PointAndClick

/-- A path and where its image stands. -/
structure Placement where
  path : String
  x : Int := 0
  y : Int := 0
  z : Int := 0
deriving DecidableEq, Repr

namespace Placement

/-- Takes integers from the end of a list of words given last word first, at most `count` of them
and never the only word left. Gives the other words, still last first, and the integers in the
order of the text. -/
def splitNumbers : Nat → List (List Char) → List Int → List (List Char) × List Int
  | count + 1, word :: next :: rest, numbers =>
      match Text.readNumeral? word with
      | some n => splitNumbers count (next :: rest) (n :: numbers)
      | none => (word :: next :: rest, numbers)
  | _, words, numbers => (words, numbers)

/-- Of the words before the integers at least one is left. -/
theorem splitNumbers_fst (count : Nat) (words : List (List Char)) (numbers : List Int) :
    (splitNumbers count words numbers).1 ⊆ words ∧
      (words ≠ [] → (splitNumbers count words numbers).1 ≠ []) := by
  fun_induction splitNumbers count words numbers with
  | case1 numbers count word next rest n hn ih =>
      exact ⟨fun w hw => List.mem_cons_of_mem _ (ih.1 hw), fun _ => ih.2 (List.cons_ne_nil _ _)⟩
  | case2 => exact ⟨fun w hw => hw, fun h => h⟩
  | case3 => exact ⟨fun w hw => hw, fun h => h⟩

/-- Words with single blanks between them. -/
def joinWords : List (List Char) → List Char
  | [] => []
  | [word] => word
  | word :: words => word ++ ' ' :: joinWords words

/-- Reads a placed image; integers that are not there are 0. -/
def parse (text : String) : Placement :=
  let (words, numbers) := splitNumbers 3 (Text.wordsOf text.toList).reverse []
  let path := String.ofList (joinWords words.reverse)
  match numbers with
  | [] => { path }
  | [x] => { path, x }
  | [x, y] => { path, x, y }
  | x :: y :: z :: _ => { path, x, y, z }

end Placement

end PointAndClick
