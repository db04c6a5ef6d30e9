import PointAndClick.Hotspot.Assembler
import PointAndClick.Proofs.Encoding.Record
import PointAndClick.Proofs.Text.Blank

/-!
# What an assembler makes of records

Records that are added to an open hotspot become its commands, in order; its image is that of the
first image command that names a path.
-/

set_option autoImplicit false

namespace PointAndClick

/-! ## Placed images without a path -/

namespace Placement

theorem joinWords_ne_nil {words : List (List Char)} (hne : words ≠ []) (h : [] ∉ words) :
    joinWords words ≠ [] := by
  match words, hne with
  | [word], _ =>
      rintro rfl
      exact h List.mem_cons_self
  | word :: next :: rest, _ => simp [joinWords]

/-- An image without a path is at the origin. -/
theorem parse_eq_of_path {text : String} (h : (parse text).path = "") :
    parse text = { path := "" } := by
  obtain ⟨hsub, hne⟩ := splitNumbers_fst 3 (Text.wordsOf text.toList).reverse []
  by_cases hwords : Text.wordsOf text.toList = []
  · simp [parse, hwords, splitNumbers, joinWords]
  -- where there is a word, one is left for the path, and it is not empty
  · exfalso
    have hleft := hne (by simpa using hwords)
    have hempty : [] ∉ (splitNumbers 3 (Text.wordsOf text.toList).reverse []).1 := fun hw =>
      Text.ne_nil_of_mem_wordsOf (List.mem_reverse.mp (hsub hw)) rfl
    have hjoin := joinWords_ne_nil (List.reverse_ne_nil_iff.mpr hleft)
      (fun hw => hempty (List.mem_reverse.mp hw))
    apply hjoin
    have hpath : (parse text).path = String.ofList (joinWords
        (splitNumbers 3 (Text.wordsOf text.toList).reverse []).1.reverse) := by
      unfold parse
      split
      split <;> simp_all
    rw [hpath, String.ofList_eq_empty_iff] at h
    exact h

end Placement

namespace Record

/-- The image of a hotspot with some commands: that of the first image command that names a
path. -/
def imageOf : List Record → Placement
  | [] => { path := "" }
  | r :: rs =>
      if r.code? = some Command.playBmp ∧ (Placement.parse r.text).path ≠ "" then
        Placement.parse r.text
      else imageOf rs

end Record

/-! ## Commands of an open hotspot -/

namespace OpenHotspot

/-- The hotspot with some more commands. -/
def withCommands (h : OpenHotspot) (rs : List Record) : OpenHotspot :=
  { h with
    image := if h.image.path = "" then Record.imageOf rs else h.image
    commands := h.commands ++ rs }

/-- An image without a path is no image. -/
def HasPlainImage (h : OpenHotspot) : Prop :=
  h.image.path = "" → h.image = { path := "" }

theorem withCommands_nil {h : OpenHotspot} (hplain : h.HasPlainImage) : h.withCommands [] = h := by
  obtain ⟨offset, eventType, image, commands, hover⟩ := h
  by_cases himage : image.path = ""
  · have hdefault : image = { path := "" } := hplain himage
    simp [withCommands, Record.imageOf, hdefault]
  · simp [withCommands, himage]

theorem hasPlainImage_withCommands {h : OpenHotspot} (r : Record) :
    (h.withCommands [r]).HasPlainImage := by
  intro hpath
  by_cases himage : h.image.path = ""
  · by_cases hr : r.code? = some Command.playBmp ∧ (Placement.parse r.text).path ≠ ""
    · simp [withCommands, himage, Record.imageOf, hr] at hpath
    · simp [withCommands, himage, Record.imageOf, hr]
  · simp [withCommands, himage] at hpath

theorem withCommands_cons {h : OpenHotspot} (r : Record) (rs : List Record) :
    (h.withCommands [r]).withCommands rs = h.withCommands (r :: rs) := by
  by_cases himage : h.image.path = ""
  · by_cases hr : r.code? = some Command.playBmp ∧ (Placement.parse r.text).path ≠ ""
    · simp [withCommands, himage, Record.imageOf, hr]
    · simp [withCommands, himage, Record.imageOf, hr]
  · simp [withCommands, himage]

end OpenHotspot

namespace Assembler

variable {a : Assembler} {h : OpenHotspot}

theorem addCommand_eq (hflat : a.flat = false) (hcurrent : a.current = some h)
    (hplain : h.HasPlainImage) (r : Record) :
    a.addCommand r = { a with current := some (h.withCommands [r]) } := by
  have hopen : a.openAt r = h := by rw [openAt, hcurrent, Option.getD_some]
  -- an image command without a path puts back the image that no command has named
  have himage : (if (r.code? = some Command.playBmp ∧ h.image.path = "") then
      Placement.parse r.text else h.image) = (h.withCommands [r]).image := by
    by_cases hpath : h.image.path = ""
    · by_cases hcode : r.code? = some Command.playBmp
      · by_cases hempty : (Placement.parse r.text).path = ""
        · simp [OpenHotspot.withCommands, Record.imageOf, hpath, hcode,
            Placement.parse_eq_of_path hempty]
        · simp [OpenHotspot.withCommands, Record.imageOf, hpath, hcode, hempty]
      · simp [OpenHotspot.withCommands, Record.imageOf, hcode, hplain hpath]
    · simp [OpenHotspot.withCommands, hpath]
  simp only [addCommand, hflat, Bool.false_and, Bool.false_eq_true, if_false, hopen,
    Bool.and_eq_true, decide_eq_true_eq]
  rw [himage]
  rfl

/-- Records without shapes that are added to an open hotspot become its commands. -/
theorem foldl_add_eq (hflat : a.flat = false) (hcurrent : a.current = some h)
    (hplain : h.HasPlainImage) (rs : List Record) (hrs : ∀ r ∈ rs, r.payload.isShape = false) :
    rs.foldl add a =
      { a with current := some (h.withCommands (rs.filter (·.payload.isCommand))) } := by
  induction rs generalizing a h with
  | nil =>
      rw [List.foldl_nil, List.filter_nil, OpenHotspot.withCommands_nil hplain, ← hcurrent]
  | cons r rs ih =>
      have hrest := fun s hs => hrs s (List.mem_cons_of_mem r hs)
      have hr := hrs r List.mem_cons_self
      rw [List.foldl_cons]
      cases hpayload : r.payload with
      | null | marker =>
          have hadd : a.add r = a := by simp [add, hpayload]
          rw [hadd, ih hflat hcurrent hplain hrest,
            List.filter_cons_of_neg (by simp [hpayload, Payload.isCommand])]
      | shape tag points => simp [hpayload, Payload.isShape] at hr
      | wrapper code text | complex code text | simple code text =>
          have hadd : a.add r = a.addCommand r := by simp [add, hpayload]
          have hnext := ih (a := { a with current := some (h.withCommands [r]) }) hflat rfl
            (OpenHotspot.hasPlainImage_withCommands r) hrest
          rw [hadd, addCommand_eq hflat hcurrent hplain r, hnext, OpenHotspot.withCommands_cons,
            List.filter_cons_of_pos (by simp [hpayload, Payload.isCommand])]

end Assembler

end PointAndClick
