import PointAndClick.Json.Writer
import PointAndClick.Script.Fault

/-!
# Values of saved states

A saved state is a JSON value, possibly one that was edited or made elsewhere. The functions here
take what a state holds as a number, a text, a list or an object where it can be taken as one.
-/

set_option autoImplicit false

namespace PointAndClick.Json

/-- A value as an integer: a number loses its places, a text has to be an integer. -/
def savedInt : Json → Except Fault Int
  | .int n => .ok n
  | .real x =>
      match x.toInt? with
      | some n => .ok n
      | none => .error .savedRange
  | .bool b => .ok (if b then 1 else 0)
  | .text s =>
      match Text.savedInteger? s with
      | some n => .ok n
      | none => .error .savedNumber
  | .null | .list _ | .object _ => .error .savedKind

/-- How numbers with a point are written in identifiers. -/
def savedRealFormat : Text.RealFormat := { realFormat with infinity := "inf" }

mutual

/-- A value in full, with texts between quotes. -/
def shown : Json → String
  | .null => "None"
  | .bool true => "True"
  | .bool false => "False"
  | .int n => Text.decimal n
  | .real x => savedRealFormat.text x
  | .text s => Text.quoted s
  | .list items => "[" ++ ", ".intercalate (shownItems items) ++ "]"
  | .object fields => "\x7b" ++ ", ".intercalate (shownFields fields) ++ "\x7d"

/-- The items of a list in full. -/
def shownItems : List Json → List String
  | [] => []
  | item :: items => shown item :: shownItems items

/-- The fields of an object in full. -/
def shownFields : List (String × Json) → List String
  | [] => []
  | (name, value) :: fields =>
      (Text.quoted name ++ ": " ++ shown value) :: shownFields fields

end

/-- A value as an identifier: a text as it stands, anything else in full. -/
def savedName : Json → String
  | .text s => s
  | value => shown value

/-- A value as a text. -/
def savedText : Json → Except Fault String
  | .text s => .ok s
  | _ => .error .savedKind

/-- The elements of a value: the items of a list, the characters of a text, the names of an
object. -/
def savedItems : Json → Except Fault (List Json)
  | .list items => .ok items
  | .text s => .ok (s.toList.map fun c => .text (String.singleton c))
  | .object fields => .ok (fields.map fun f => .text f.1)
  | _ => .error .savedKind

/-- The fields of a value, which has to be an object. -/
def savedFields : Json → Except Fault (List (String × Json))
  | .object fields => .ok fields
  | _ => .error .savedObject

/-- A value that counts as true. -/
def isSet : Json → Bool
  | .null => false
  | .bool b => b
  | .int n => n ≠ 0
  | .real x => !x.isZero
  | .text s => s ≠ ""
  | .list items => !items.isEmpty
  | .object fields => !fields.isEmpty

end PointAndClick.Json
