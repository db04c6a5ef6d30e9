import PointAndClick.Project.Header
import PointAndClick.Project.Variable
import PointAndClick.Scene.Basic
import PointAndClick.Text.LetterCase

/-!
# Projects

A decoded project: its header, its variables and its scenes, and what decoding has to say about
them.
-/

set_option autoImplicit false

namespace PointAndClick

/-- The two forms in which a file may hold its scenes. -/
inductive Dialect
  /-- A counted table. -/
  | table
  /-- An uncounted stream. -/
  | stream
deriving DecidableEq, Repr

namespace Dialect

/-- The letter by which a dialect is known. -/
def letter : Dialect → String
  | table => "A"
  | stream => "B"

/-- A word between 0 and this one, both excluded, is the count of a scene table. -/
def tableBound : Nat := 100

/-- The dialect of the scenes at a position, which the word there decides. A position without a
word, outside the buffer or too close to its end, counts as a stream. -/
def detect (b : Buffer) (pos : Int) : Dialect :=
  if pos < 0 ∨ b.size < pos + 4 then stream
  else
    let word := b.wordAt pos.toNat
    if 0 < word ∧ word < tableBound then table else stream

end Dialect

/-- A decoded project. -/
structure Project where
  header : Header := {}
  variableList : List Variable := []
  dialect : Dialect := .stream
  scenes : List Scene := []
  headerEnd : Nat := 0
  variablesEnd : Nat := 0
  size : Nat := 0
  errors : List String := []
deriving Repr

namespace Project

/-- The number of hotspots in all scenes. -/
def hotspotCount (p : Project) : Nat :=
  (p.scenes.flatMap (·.hotspots)).length

/-- The first scene of a name, whatever the case of its letters. -/
def sceneByName? (p : Project) (name : String) : Option Scene :=
  p.scenes.find? fun s => Text.lowercased s.name = Text.lowercased name

end Project

end PointAndClick
