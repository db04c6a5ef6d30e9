import PointAndClick.Number.Binary64

/-!
# JSON values

A JSON value whose objects keep the order of their fields. Numbers written with a point or an
exponent are apart from the integers.
-/

set_option autoImplicit false

namespace PointAndClick

/-- A JSON value. -/
inductive Json
  | null
  | bool (value : Bool)
  | int (value : Int)
  | real (value : Binary64)
  | text (value : String)
  | list (items : List Json)
  | object (fields : List (String × Json))
deriving Inhabited

namespace Json

/-- The fields with one more: the value of a field that is there already is replaced where it
stands. -/
def withField (fields : List (String × Json)) (name : String) (value : Json) :
    List (String × Json) :=
  match fields with
  | [] => [(name, value)]
  | (n, v) :: rest =>
      if n = name then (n, value) :: rest else (n, v) :: withField rest name value

/-- An object with the given fields, of which the last of one name counts. -/
def ofFields (fields : List (String × Json)) : Json :=
  .object (fields.foldl (fun acc f => withField acc f.1 f.2) [])

/-- The value of a field of an object. -/
def field? (name : String) : Json → Option Json
  | .object fields => fields.lookup name
  | _ => none

/-- An integer, or null. -/
def ofInt? : Option Int → Json
  | some n => .int n
  | none => .null

/-- An index, or null. -/
def ofNat? : Option Nat → Json
  | some n => .int n
  | none => .null

/-- A text, or null. -/
def ofText? : Option String → Json
  | some s => .text s
  | none => .null

/-- The list of a value's images. -/
def listOf {α : Type} (f : α → Json) (xs : List α) : Json :=
  .list (xs.map f)

end Json

end PointAndClick
