import PointAndClick.Boundary.Profile
import PointAndClick.Buffer
import PointAndClick.Text.Blank
import PointAndClick.Text.Occurrence

/-!
# The content of a boundary

The first name of an image or a video in a window of a file: a word with a plausible length, and
a text of that length, which the end of the file may cut short.
-/

set_option autoImplicit false

namespace PointAndClick.Boundary

/-- The letters before the end of a name of a video. -/
def videoSuffix : List Char := ['.', 'a', 'v', 'i']

/-- The letters before the end of a name of an image. -/
def imageSuffix : List Char := ['.', 'b', 'm', 'p']

/-- The longest start of a word that has something before the end of a video's name and ends
with that. -/
def videoStart? : List Char → Option (List Char)
  | [] => none
  | c :: cs =>
      match videoStart? cs with
      | some start => some (c :: start)
      | none => if videoSuffix.isPrefixOf cs then some (c :: videoSuffix) else none

/-- The name of an image or a video in a text, if it has one. A text that ends in one counts as a
whole; one in which a video's name ends a part of the first word counts up to there. -/
def nameIn? (text : List Char) : Option (List Char) :=
  if imageSuffix.isSuffixOf text then some text
  else if Text.occursIn videoSuffix text then
    if videoSuffix.isSuffixOf text then some text
    else some ((videoStart? (Text.takeWord text)).getD text)
  else none

/-- The name at a position, if a word with a plausible length stands there. -/
def nameAt? (b : Buffer) (p : BoundaryProfile) (pos : Nat) : Option (List Char) :=
  let length := b.wordAt pos
  if p.contentMinLength ≤ length ∧ length ≤ p.contentMaxLength then
    nameIn? ((b.slice (pos + 4) length).map Buffer.charOf)
  else none

/-- The first name at one of `count` positions from `pos` on. -/
def searchName (b : Buffer) (p : BoundaryProfile) : Nat → Nat → Option (List Char)
  | 0, _ => none
  | count + 1, pos =>
      match nameAt? b p pos with
      | some name => some name
      | none => searchName b p count (pos + 1)

/-- The first name in the window from a position on. -/
def content? (b : Buffer) (p : BoundaryProfile) (start : Nat) : Option String :=
  let stop := min (start + p.contentWindow) ((b.size : Int) - 4)
  (searchName b p (stop - start).toNat start).map String.ofList

end PointAndClick.Boundary
