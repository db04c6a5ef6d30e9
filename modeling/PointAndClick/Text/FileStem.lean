/-!
# The stem of a file name

`fileStem` is the last component of a path without its extension. Both slashes separate
components; a drive letter with a colon, and the server and share of a network path, are no
components. The extension starts at the last point of the component, unless that is its first or
its last character.
-/

set_option autoImplicit false

namespace PointAndClick.Text

/-! ## What precedes the components -/

/-- Skips the marker of an extended-length path, and turns the extended form of a network path
into the plain one. -/
def dropExtendedMark : List Char → List Char
  | '\\' :: '\\' :: '?' :: '\\' :: 'U' :: 'N' :: 'C' :: '\\' :: cs => '\\' :: '\\' :: cs
  | '\\' :: '\\' :: '?' :: '\\' :: cs => cs
  | cs => cs

/-- What follows the server and the share of a network path; `none` if the path is not one. -/
def networkRest? : List Char → Option (List Char)
  | '\\' :: '\\' :: cs =>
      match cs with
      | '\\' :: _ => none
      | _ =>
          match cs.dropWhile (· ≠ '\\') with
          | [] => none
          | _ :: share =>
              match share with
              | '\\' :: _ => none
              | _ => some ((share.dropWhile (· ≠ '\\')).drop 1)
  | _ => none

/-- What follows a drive letter and its colon. -/
def dropDrive : List Char → List Char
  | c :: ':' :: cs =>
      if (0x41 ≤ c.toNat && c.toNat ≤ 0x5A) || (0x61 ≤ c.toNat && c.toNat ≤ 0x7A) then cs
      else c :: ':' :: cs
  | cs => cs

/-- The part of a path that holds its components. -/
def relativePart (path : List Char) : List Char :=
  let plain := dropExtendedMark path
  match networkRest? plain with
  | some rest => rest
  | none => dropDrive plain

/-! ## Components and stems -/

/-- The pieces of a path between separators. -/
def pieces (separator : Char) : List Char → List (List Char)
  | [] => [[]]
  | c :: cs =>
      if c = separator then [] :: pieces separator cs
      else
        match pieces separator cs with
        | [] => [[c]]
        | p :: ps => (c :: p) :: ps

/-- The components of a path: its pieces without the empty ones and the single points. -/
def components (path : List Char) : List (List Char) :=
  (pieces '\\' (relativePart path)).filter fun p => p ≠ [] ∧ p ≠ ['.']

/-- The part of a name before its last point; `none` if it has no point. -/
def beforeLastPoint? : List Char → Option (List Char)
  | [] => none
  | c :: cs =>
      match beforeLastPoint? cs with
      | some before => some (c :: before)
      | none => if c = '.' then some [] else none

/-- A name without its extension. -/
def dropExtension (name : List Char) : List Char :=
  match beforeLastPoint? name with
  | none => name
  | some before =>
      if before = [] ∨ before.length + 1 = name.length then name else before

/-- The stem of the last component of a path, empty if there is none. -/
def stemOf (path : List Char) : List Char :=
  let path := path.map fun c => if c = '/' then '\\' else c
  match (components path).getLast? with
  | none => []
  | some name => dropExtension name

/-- `stemOf` on strings. -/
def fileStem (path : String) : String :=
  String.ofList (stemOf path.toList)

end PointAndClick.Text
