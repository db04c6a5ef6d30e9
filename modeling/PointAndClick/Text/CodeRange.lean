/-!
# Sets of characters as ranges of code points

A property of characters that a standard gives as a table is kept as a list of closed ranges;
`CodeRange.holds` asks whether one of them has the character.
-/

set_option autoImplicit false

namespace PointAndClick.Text

/-- A closed range of code points. -/
structure CodeRange where
  first : Nat
  last : Nat
deriving DecidableEq, Repr

namespace CodeRange

/-- The range has the character. -/
def has (r : CodeRange) (c : Char) : Bool :=
  r.first ≤ c.toNat && c.toNat ≤ r.last

/-- One of the ranges has the character. -/
def holds (rs : List CodeRange) (c : Char) : Bool :=
  rs.any (·.has c)

/-- The table form of a list of ranges: pairs of a first and a last code point. -/
def ofPairs (ps : List (Nat × Nat)) : List CodeRange :=
  ps.map fun p => ⟨p.1, p.2⟩

end CodeRange

end PointAndClick.Text
