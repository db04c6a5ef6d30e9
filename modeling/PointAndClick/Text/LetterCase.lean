import PointAndClick.Text.CaseTable
import PointAndClick.Text.CasedTable

/-!
# Upper and lower case

The full case mappings: a character may become several, as `ß` becomes `SS`, and a capital sigma
at the end of a word becomes `ς` instead of `σ`.
-/

set_option autoImplicit false

namespace PointAndClick.Text

/-- The code point that the runs of a mapping give for a code point, itself if none covers it. -/
def mapByRuns (runs : List (Nat × Nat × Nat × Int)) (n : Nat) : Nat :=
  match runs.find? fun (first, last, stride, _) =>
      first ≤ n && n ≤ last && (n - first) % stride == 0 with
  | some (_, _, _, shift) => (n + shift).toNat
  | none => n

/-- The characters that a mapping gives for one character from 0x80 on. -/
def mapAboveAscii (expansions : List (Nat × List Nat)) (runs : List (Nat × Nat × Nat × Int))
    (c : Char) : List Char :=
  match expansions.lookup c.toNat with
  | some codes => codes.map Char.ofNat
  | none => [Char.ofNat (mapByRuns runs c.toNat)]

/-! ## Upper case -/

/-- The upper case of one character. -/
def upperChar (c : Char) : List Char :=
  let n := c.toNat
  if n < 0x80 then
    if 0x61 ≤ n && n ≤ 0x7A then [Char.ofNat (n - 0x20)] else [c]
  else mapAboveAscii upperExpansions upperRuns c

/-- The upper case of a text. -/
def upper (cs : List Char) : List Char :=
  cs.flatMap upperChar

/-- `upper` on strings. -/
def uppercased (s : String) : String :=
  String.ofList (upper s.toList)

/-! ## Lower case -/

/-- The lower case of one character, whatever stands around it. -/
def lowerChar (c : Char) : List Char :=
  let n := c.toNat
  if n < 0x80 then
    if 0x41 ≤ n && n ≤ 0x5A then [Char.ofNat (n + 0x20)] else [c]
  else mapAboveAscii lowerExpansions lowerRuns c

/-- The first character that is not case-ignorable has a case. -/
def meetsCased (cs : List Char) : Bool :=
  match cs.dropWhile (CodeRange.holds caseIgnorableRanges) with
  | [] => false
  | c :: _ => CodeRange.holds casedRanges c

/-- The lower case of the rest of a text. `inWord` says whether the last character before it that
is not case-ignorable has a case: then a capital sigma that no cased character follows is final. -/
def lowerFrom (inWord : Bool) : List Char → List Char
  | [] => []
  | c :: cs =>
      if c.toNat < 0x80 then
        let letter := (0x41 ≤ c.toNat && c.toNat ≤ 0x5A) || (0x61 ≤ c.toNat && c.toNat ≤ 0x7A)
        lowerChar c ++ lowerFrom (letter || (inWord && CodeRange.holds caseIgnorableRanges c)) cs
      else
        let here := if CodeRange.holds caseIgnorableRanges c then inWord
          else CodeRange.holds casedRanges c
        if c == 'Σ' then (if inWord && !meetsCased cs then 'ς' else 'σ') :: lowerFrom here cs
        else lowerChar c ++ lowerFrom here cs

/-- The lower case of a text. -/
def lower (cs : List Char) : List Char :=
  lowerFrom false cs

/-- `lower` on strings. -/
def lowercased (s : String) : String :=
  String.ofList (lower s.toList)

end PointAndClick.Text
