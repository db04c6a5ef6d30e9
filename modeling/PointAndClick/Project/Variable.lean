import PointAndClick.Decoder

/-!
# The variable table

Behind the header stand the variables with their initial values: a text and a signed word each.
-/

set_option autoImplicit false

namespace PointAndClick

/-- A variable of a project and its initial value. -/
structure Variable where
  name : String
  value : Int
  offset : Nat := 0
deriving DecidableEq, Repr

namespace Variable

/-- The complete variable at a position and the position behind it. -/
def at? (b : Buffer) (pos : Nat) : Option (Variable × Nat) :=
  match b.textAt? pos with
  | none => none
  | some (name, after) =>
      if b.size < after + 4 then none
      else some ({ name, value := b.signedAt after, offset := pos }, after + 4)

/-- Reads at most `count` variables, up to the first that is not complete. `fuel` bounds their
number. -/
def collect (b : Buffer) : Nat → Nat → Nat → List Variable × Nat
  | fuel + 1, count + 1, pos =>
      match at? b pos with
      | none => ([], pos)
      | some (v, after) =>
          let (rest, last) := collect b fuel count after
          (v :: rest, last)
  | _, _, pos => ([], pos)

/-- The table of at most `count` variables from a position on, and the position behind it. A
variable takes at least eight bytes, so the size of the buffer bounds their number. -/
def table (b : Buffer) (count pos : Nat) : List Variable × Nat :=
  collect b (b.size / 8 + 1) count pos

end Variable

end PointAndClick
