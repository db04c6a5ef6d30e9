import PointAndClick.Text.FileStem

/-!
# Places in a folder

Where a file of an export is, given the folder. A point in a path leads nowhere, and two points
lead back one step.
-/

set_option autoImplicit false

namespace PointAndClick.Export

/-- Takes one more step of a path. The last of the steps so far comes first. -/
def takeStep (taken : List (List Char)) (step : List Char) : List (List Char) :=
  if step = [] ∨ step = ['.'] then taken
  else if step = ['.', '.'] then
    match taken with
    | [] => [step]
    | last :: before => if last = step then step :: taken else before
  else step :: taken

/-- The steps of a path, without those that lead nowhere or back. -/
def steps (path : List Char) : List (List Char) :=
  ((Text.pieces '/' path).foldl takeStep []).reverse

/-- The path of a file in a folder. -/
def below (folder path : String) : String :=
  let whole := folder.toList ++ '/' :: path.toList
  let root := if folder.toList.head? = some '/' then "/" else ""
  root ++ "/".intercalate ((steps (if folder = "" then path.toList else whole)).map String.ofList)

end PointAndClick.Export
