import PointAndClick.Hotspot.Assembler

/-!
# The records that an assembler holds

An assembler that gets the records of a region one after another holds each of them at most once,
and only commands; its hotspots are numbered in order. `Assembler.Sound` says so for the records
between two positions, and every operation keeps it while the second position moves on.
-/

set_option autoImplicit false

namespace PointAndClick

/-- The record is a command, and not one of those that are dropped. -/
def Record.Counts (r : Record) : Prop :=
  match r.payload with
  | .null | .marker | .shape .. => False
  | .complex code _ => code = 6 ∨ code = 9 ∨ code = 16 ∨ code = 22
  | .wrapper .. | .simple .. => True

/-- The records of a hotspot. -/
def Hotspot.records (h : Hotspot) : List Record := h.commands ++ h.hover

/-- The records of an open hotspot. -/
def OpenHotspot.records (h : OpenHotspot) : List Record := h.commands ++ h.hover

/-- A hotspot without content has no records. -/
theorem OpenHotspot.commands_hover_eq_nil {h : OpenHotspot} (hempty : h.hasContent = false) :
    h.commands = [] ∧ h.hover = [] := by
  simp only [OpenHotspot.hasContent, Bool.or_eq_false_iff, Bool.not_eq_false',
    List.isEmpty_iff] at hempty
  exact hempty.1

namespace Assembler

/-- The records that the assembler holds. -/
def records (a : Assembler) : List Record :=
  a.preamble ++ a.hotspots.flatMap Hotspot.records ++
    (a.current.map OpenHotspot.records).getD []

/-- The hotspots are numbered in order. -/
def Numbered (hotspots : List Hotspot) : Prop :=
  ∀ i (h : i < hotspots.length), hotspots[i].id = i

/-- The assembler holds commands that start between two positions, each at most once, and its
hotspots are numbered in order. -/
structure Sound (a : Assembler) (low high : Nat) : Prop where
  numbered : Numbered a.hotspots
  counts : ∀ r ∈ a.records, r.Counts
  span : ∀ r ∈ a.records, low ≤ r.offset ∧ r.offset < high
  distinct : (a.records.map Record.offset).Nodup

theorem sound_empty (flat : Bool) (low high : Nat) : Sound { flat } low high where
  numbered := fun i h => absurd h (Nat.not_lt_zero i)
  counts := fun _ hr => nomatch hr
  span := fun _ hr => nomatch hr
  distinct := List.nodup_nil

variable {a : Assembler} {r : Record} {low high : Nat}

/-! ## Closing a hotspot -/

theorem records_eq_of_current (hcurrent : a.current = none) :
    a.records = a.preamble ++ a.hotspots.flatMap Hotspot.records := by
  rw [records, hcurrent]
  exact List.append_nil _

theorem current_close (a : Assembler) (shape : Option Shape) : (a.close shape).current = none := by
  unfold close
  split
  · assumption
  · split <;> rfl

theorem preamble_close (a : Assembler) (shape : Option Shape) :
    (a.close shape).preamble = a.preamble := by
  unfold close
  split
  · rfl
  · split <;> rfl

/-- Closing makes a hotspot of the open one, or drops it where it has neither a shape nor
content. -/
theorem hotspots_close (a : Assembler) (shape : Option Shape) :
    (∃ h, a.current = some h ∧
      (a.close shape).hotspots = a.hotspots ++ [h.finished a.hotspots.length shape]) ∨
    ((∀ h, a.current = some h → shape = none ∧ h.hasContent = false) ∧
      (a.close shape).hotspots = a.hotspots) := by
  unfold close
  cases hcurrent : a.current with
  | none => exact .inr ⟨nofun, rfl⟩
  | some h =>
      simp only
      split
      · next hhollow =>
          rw [Bool.and_eq_true, Option.isNone_iff_eq_none, Bool.not_eq_true'] at hhollow
          refine .inr ⟨fun h' hsome => ?_, rfl⟩
          rwa [← Option.some.inj hsome]
      · exact .inl ⟨h, rfl, rfl⟩

/-- Closing loses none of the records that a hotspot keeps of those of an open one. -/
theorem flatMap_close {kept : Hotspot → List Record} {held : OpenHotspot → List Record}
    (hkept : ∀ h id shape, kept (h.finished id shape) = held h)
    (hempty : ∀ h, h.hasContent = false → held h = []) (a : Assembler) (shape : Option Shape) :
    (a.close shape).hotspots.flatMap kept =
      a.hotspots.flatMap kept ++ (a.current.map held).getD [] := by
  obtain ⟨h, hcurrent, hnew⟩ | ⟨hdropped, hsame⟩ := hotspots_close a shape
  · rw [hnew, hcurrent, List.flatMap_append, List.flatMap_singleton, hkept]
    rfl
  · have hnone : (a.current.map held).getD [] = [] := by
      cases hcurrent : a.current with
      | none => rfl
      | some h => exact hempty h (hdropped h hcurrent).2
    rw [hsame, hnone, List.append_nil]

/-- Closing a hotspot loses no record. -/
theorem records_close (a : Assembler) (shape : Option Shape) :
    (a.close shape).records = a.records := by
  have hempty (h : OpenHotspot) (hhollow : h.hasContent = false) : h.records = [] := by
    obtain ⟨hcommands, hhover⟩ := OpenHotspot.commands_hover_eq_nil hhollow
    rw [OpenHotspot.records, hcommands, hhover, List.append_nil]
  rw [records_eq_of_current (current_close a shape), preamble_close,
    flatMap_close (fun _ _ _ => rfl) hempty, records, List.append_assoc]

theorem numbered_close (h : Numbered a.hotspots) (shape : Option Shape) :
    Numbered (a.close shape).hotspots := by
  obtain ⟨_, -, hnew⟩ | ⟨-, hsame⟩ := hotspots_close a shape
  · intro i hi
    simp only [hnew, List.length_append, List.length_singleton] at hi
    simp only [hnew, List.getElem_append]
    split
    · next hlt => exact h i hlt
    -- the new hotspot has the number of those before it
    · next hge =>
        simp only [List.getElem_singleton, OpenHotspot.finished]
        omega
  · rwa [hsame]

theorem Sound.of_records {b : Assembler} (h : Sound a low high) (hnumbered : Numbered b.hotspots)
    (hrecords : b.records = a.records) : Sound b low high where
  numbered := hnumbered
  counts := by rw [hrecords]; exact h.counts
  span := by rw [hrecords]; exact h.span
  distinct := by rw [hrecords]; exact h.distinct

theorem Sound.close (h : Sound a low high) (shape : Option Shape) :
    Sound (a.close shape) low high :=
  h.of_records (numbered_close h.numbered shape) (records_close a shape)

theorem records_open (hcurrent : a.current = none) {h : OpenHotspot} (hnil : h.records = []) :
    Assembler.records { a with current := some h } = a.records := by
  rw [records_eq_of_current hcurrent]
  simp only [records, Option.map_some, Option.getD_some, hnil, List.append_nil]

theorem Sound.begin (h : Sound a low high) (eventType : Option Nat) (offset : Nat) :
    Sound (a.begin eventType offset) low high :=
  (h.close none).of_records (h.close none).numbered (records_open (current_close a none) rfl)

theorem Sound.mono (h : Sound a low high) {high' : Nat} (hle : high ≤ high') :
    Sound a low high' where
  numbered := h.numbered
  counts := h.counts
  span := fun r hr => by
    have hspan := h.span r hr
    omega
  distinct := h.distinct

/-! ## Adding a record -/

/-- One more record from behind all others. -/
theorem Sound.of_perm {b : Assembler} (h : Sound a low high) (hnumbered : Numbered b.hotspots)
    (hperm : b.records.Perm (a.records ++ [r])) (hcounts : r.Counts) (hlow : low ≤ high)
    (hhigh : high ≤ r.offset) : Sound b low (r.offset + 1) where
  numbered := hnumbered
  counts := fun s hs => by
    rcases List.mem_append.mp (hperm.mem_iff.mp hs) with hold | hnew
    · exact h.counts s hold
    · rw [List.mem_singleton.mp hnew]
      exact hcounts
  span := fun s hs => by
    rcases List.mem_append.mp (hperm.mem_iff.mp hs) with hold | hnew
    · have hspan := h.span s hold
      omega
    · rw [List.mem_singleton.mp hnew]
      omega
  distinct := by
    have hmap := hperm.map Record.offset
    rw [hmap.nodup_iff, List.map_append, List.nodup_append]
    -- all records held so far start before the new one
    refine ⟨h.distinct, by simp, ?_⟩
    rintro _ hold _ hnew rfl
    obtain ⟨s, hs, hoffset⟩ := List.mem_map.mp hold
    have hspan := h.span s hs
    have hsame := List.mem_singleton.mp hnew
    omega

theorem records_addFlatImage (a : Assembler) (r : Record) :
    (a.addFlatImage r).records = a.records := by
  unfold addFlatImage
  cases hcurrent : a.current with
  | none => exact records_open hcurrent rfl
  | some h =>
      simp only
      split
      · simp only [records, hcurrent, Option.map_some, Option.getD_some, OpenHotspot.records]
      · rw [records_open (current_close a none) rfl, records_close]

theorem numbered_addFlatImage (h : Numbered a.hotspots) (r : Record) :
    Numbered (a.addFlatImage r).hotspots := by
  unfold addFlatImage
  split
  · split
    · exact h
    · exact numbered_close h none
  · exact h

theorem records_openAt (a : Assembler) (r : Record) :
    a.records = a.preamble ++ a.hotspots.flatMap Hotspot.records ++ (a.openAt r).records := by
  cases hcurrent : a.current <;> simp [records, openAt, hcurrent, OpenHotspot.records]

/-- A command is held once more, or not at all if it only gives a hotspot its image. -/
theorem records_addCommand (a : Assembler) (r : Record) :
    (a.addCommand r).records = a.records ∨ (a.addCommand r).records.Perm (a.records ++ [r]) := by
  dsimp only [addCommand]
  split
  · exact Or.inl (records_addFlatImage a r)
  split
  -- before the first hotspot of a flat run, commands belong to none
  · next hflat =>
      have hcurrent : a.current = none := by
        simp only [Bool.and_eq_true, Option.isNone_iff_eq_none] at hflat
        exact hflat.2
      have hrecords : records { a with preamble := a.preamble ++ [r] } =
          (a.preamble ++ [r]) ++ a.hotspots.flatMap Hotspot.records :=
        records_eq_of_current hcurrent
      refine Or.inr ?_
      rw [hrecords, records_eq_of_current hcurrent]
      simp only [List.append_assoc]
      exact List.Perm.append_left _ List.perm_append_comm
  · refine Or.inr ?_
    rw [records_openAt a r]
    simp only [records, Option.map_some, Option.getD_some, OpenHotspot.records, List.append_assoc]
    refine List.Perm.append_left _ (List.Perm.append_left _ (List.Perm.append_left _ ?_))
    exact List.perm_append_comm

theorem numbered_addCommand (h : Numbered a.hotspots) (r : Record) :
    Numbered (a.addCommand r).hotspots := by
  dsimp only [addCommand]
  split
  · exact numbered_addFlatImage h r
  · split <;> exact h

theorem Sound.addCommand (h : Sound a low high) (hcounts : r.Counts) (hlow : low ≤ high)
    (hhigh : high ≤ r.offset) : Sound (a.addCommand r) low (r.offset + 1) := by
  have hnumbered := numbered_addCommand h.numbered r
  rcases records_addCommand a r with heq | hperm
  · exact (h.of_records hnumbered heq).mono (by omega)
  · exact h.of_perm hnumbered hperm hcounts hlow hhigh

theorem Record.counts_of_isKept (hkept : r.isKept = true) (hcommand : r.code?.isSome = true) :
    r.Counts := by
  unfold Record.Counts
  cases hpayload : r.payload with
  | null | marker | shape tag points => simp [Record.code?, hpayload] at hcommand
  | wrapper code text | simple code text => trivial
  | complex code text => simpa [Record.isKept, Record.keptCodes, hpayload] using hkept

/-- A record that is kept may be added. -/
theorem Sound.add (h : Sound a low high) (hkept : r.isKept = true) (hlow : low ≤ high)
    (hhigh : high ≤ r.offset) : Sound (a.add r) low (r.offset + 1) := by
  unfold Assembler.add
  split
  · exact h.mono (by omega)
  · exact h.mono (by omega)
  · exact (h.close _).mono (by omega)
  all_goals
    next hpayload =>
      refine h.addCommand (Record.counts_of_isKept hkept ?_) hlow hhigh
      rw [Record.code?, hpayload]
      rfl

/-- A command may be added to what the pointer sets off. -/
theorem Sound.addHover (h : Sound a low high) (hcounts : r.Counts) (hlow : low ≤ high)
    (hhigh : high ≤ r.offset) : Sound (a.addHover r) low (r.offset + 1) := by
  have hrecords : (a.addHover r).records = a.records ++ [r] := by
    rw [records_openAt a r]
    simp only [Assembler.addHover, records, Option.map_some, Option.getD_some,
      OpenHotspot.records, List.append_assoc]
  exact h.of_perm h.numbered (hrecords ▸ List.Perm.refl _) hcounts hlow hhigh

end Assembler

end PointAndClick
