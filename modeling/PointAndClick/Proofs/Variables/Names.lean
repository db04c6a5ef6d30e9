import PointAndClick.Play.Variables
import PointAndClick.Proofs.Text.LetterCase

/-!
# Kept names

The name under which a variable is kept is in upper case and begins with no blank. It ends in one
only if it was cut there (`length_key_of_endsBlank`). Taken as a name once more it loses the blanks
at its end and nothing else (`key_key`), so that it may become another name, but never none.
-/

set_option autoImplicit false

namespace PointAndClick

namespace Variables

theorem toList_key (name : String) :
    (key name).toList = (Text.upper (Text.trim name.toList)).take maxNameLength := by
  simp [key]

theorem key_isPrefix (name : String) :
    (key name).toList <+: Text.upper (Text.trim name.toList) := by
  rw [toList_key]
  exact List.take_prefix _ _

theorem beginsPlain_key (name : String) : Text.BeginsPlain (key name).toList :=
  Text.beginsPlain_of_isPrefix (Text.beginsPlain_upper (Text.beginsPlain_trim _)) (key_isPrefix name)

/-- A kept name is in upper case and short enough, so that only blanks at its end are left to
take. -/
theorem key_key (name : String) :
    key (key name) = String.ofList (Text.dropBlanksEnd (key name).toList) := by
  have hpart : Text.dropBlanksEnd (key name).toList <+: (key name).toList :=
    Text.dropBlanksEnd_isPrefix _
  have hupper : Text.upper (Text.dropBlanksEnd (key name).toList) =
      Text.dropBlanksEnd (key name).toList := by
    apply Text.upper_eq_self
    intro c hc
    exact (hpart.trans (key_isPrefix name)).subset hc
  have hlength : (Text.dropBlanksEnd (key name).toList).length ≤ maxNameLength := by
    have hkey : (key name).toList.length ≤ maxNameLength := by
      rw [toList_key]
      exact List.length_take_le _ _
    exact hpart.length_le.trans hkey
  calc key (key name)
      = String.ofList ((Text.upper (Text.trim (key name).toList)).take maxNameLength) := rfl
    _ = String.ofList ((Text.dropBlanksEnd (key name).toList).take maxNameLength) := by
        rw [Text.trim_of_beginsPlain (beginsPlain_key name), hupper]
    _ = String.ofList (Text.dropBlanksEnd (key name).toList) := by
        rw [List.take_of_length_le hlength]

/-- A name in upper case names the same variable. -/
theorem key_uppercased (name : String) : key (Text.uppercased name) = key name := by
  have hupper : Text.upper (Text.trim (Text.uppercased name).toList) =
      Text.upper (Text.trim name.toList) := by
    rw [Text.uppercased, String.toList_ofList, Text.trim_upper, Text.upper_upper]
  unfold key
  rw [hupper]

theorem key_key_eq_self_iff (name : String) :
    key (key name) = key name ↔ ¬Text.EndsBlank (key name).toList := by
  rw [← Text.dropBlanksEnd_eq_self_iff, key_key, ← String.toList_inj, String.toList_ofList]

theorem not_endsBlank_key_key (name : String) : ¬Text.EndsBlank (key (key name)).toList := by
  rw [key_key, String.toList_ofList]
  exact Text.not_endsBlank_dropBlanksEnd _

/-- What begins with no blank is not all blank. -/
theorem key_key_ne_empty {name : String} (h : key name ≠ "") : key (key name) ≠ "" := by
  intro hempty
  have hblank : ∀ c ∈ (key name).toList, Text.isBlank c = true := by
    rw [← Text.dropBlanksEnd_eq_nil_iff]
    simpa [key_key] using hempty
  have hbegins := beginsPlain_key name
  cases hcs : (key name).toList with
  | nil => exact h (by simpa using hcs)
  | cons c cs =>
      rw [hcs] at hblank hbegins
      have hplain := hbegins c rfl
      rw [hblank c List.mem_cons_self] at hplain
      nomatch hplain

/-- A kept name that ends in a blank was cut there. -/
theorem length_key_of_endsBlank {name : String} (h : Text.EndsBlank (key name).toList) :
    (key name).toList.length = maxNameLength := by
  have hlong : maxNameLength ≤ (Text.upper (Text.trim name.toList)).length := by
    by_contra hshort
    rw [toList_key, List.take_of_length_le (by omega)] at h
    exact Text.not_endsBlank_dropBlanksEnd _ (Text.endsBlank_of_endsBlank_upper h)
  rw [toList_key, List.length_take, Nat.min_eq_left hlong]

end Variables

end PointAndClick
