import PointAndClick.Play.SavedValue
import PointAndClick.Project.Variable
import PointAndClick.Text.LetterCase

/-!
# Variables of a running project

A table of signed 32-bit numbers. Names are the same whatever their case and the blanks around
them, and count up to `maxNameLength` characters. A variable that is not there reads as zero.
-/

set_option autoImplicit false

namespace PointAndClick

/-- The variables that are there with their values, in the order in which they came. -/
structure Variables where
  entries : List (String × Int) := []
deriving DecidableEq, Repr

namespace Variables

/-! ## Names and numbers -/

/-- The most characters of a name that count. -/
def maxNameLength : Nat := 255

/-- The form of a name under which its variable is kept. -/
def key (name : String) : String :=
  String.ofList ((Text.upper (Text.trim name.toList)).take maxNameLength)

/-- The signed 32-bit number that a number wraps to. -/
def wrap (n : Int) : Int := Int.bmod n 0x100000000

/-! ## Reading -/

/-- The value of a variable, if it is there. -/
def find? (v : Variables) (name : String) : Option Int :=
  v.entries.lookup (key name)

/-- The value of a variable, zero if it is not there. -/
def get (v : Variables) (name : String) : Int :=
  (v.find? name).getD 0

/-- The variable is there. -/
def contains (v : Variables) (name : String) : Bool :=
  (v.find? name).isSome

/-- The variables in the order of their names. -/
def sorted (v : Variables) : List (String × Int) :=
  v.entries.mergeSort fun a b => decide (a.1 ≤ b.1)

/-! ## Writing -/

/-- The entries with one more, or with a new value in its place. -/
def insert (entries : List (String × Int)) (k : String) (value : Int) : List (String × Int) :=
  match entries with
  | [] => [(k, value)]
  | (l, old) :: rest => if l = k then (l, value) :: rest else (l, old) :: insert rest k value

/-- What a write did: the kept name, and the value read before and after it. -/
structure Write where
  key : String
  old : Int
  new : Int
deriving DecidableEq, Repr

/-- The write changed the value that is read. -/
def Write.isChange (w : Write) : Bool := w.old ≠ w.new

/-- Writes a variable, which must have a name. -/
def set (v : Variables) (name : String) (value : Int) : Except Fault (Variables × Write) :=
  let k := key name
  if k = "" then .error .emptyName
  else
    .ok (⟨insert v.entries k (wrap value)⟩, { key := k, old := v.get name, new := wrap value })

/-- Adds to a variable. -/
def increment (v : Variables) (name : String) (amount : Int) :
    Except Fault (Variables × Write) :=
  v.set name (v.get name + amount)

/-- Subtracts from a variable. -/
def decrement (v : Variables) (name : String) (amount : Int) :
    Except Fault (Variables × Write) :=
  v.set name (v.get name - amount)

/-- The variables without one. -/
def delete (v : Variables) (name : String) : Variables :=
  ⟨v.entries.filter (·.1 ≠ key name)⟩

/-- The variables with one written, unless its name is empty. -/
def put (v : Variables) (name : String) (value : Int) : Variables :=
  if key name = "" then v else ⟨insert v.entries (key name) (wrap value)⟩

/-- The variables with those of a project; of several with one name the last counts. -/
def load (v : Variables) (initial : List Variable) : Variables :=
  initial.foldl (fun v w => v.put w.name w.value) v

/-! ## Saving -/

/-- The variables as a state to save. -/
def save (v : Variables) : Json :=
  .object (v.entries.map fun e => (e.1, .int e.2))

/-- Puts saved variables on top of others, up to the first that is not a number. -/
def putSaved (v : Variables) : List (String × Json) → Variables × Except Fault Unit
  | [] => (v, .ok ())
  | (name, value) :: fields =>
      if key name = "" then v.putSaved fields
      else
        match value.savedInt with
        | .error e => (v, .error e)
        | .ok n => (v.put name n).putSaved fields

/-- The variables of a saved state. -/
def ofSaved (state : Json) : Variables × Except Fault Unit :=
  match state.savedFields with
  | .error e => ({}, .error e)
  | .ok fields => putSaved {} fields

end Variables

end PointAndClick
