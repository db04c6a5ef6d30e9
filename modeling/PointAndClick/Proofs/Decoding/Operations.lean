import PointAndClick.Proofs.Decoding.EventGroup
import PointAndClick.Proofs.Encoding.EventGroup
import PointAndClick.Proofs.Hotspot.Conservation

/-!
# Reading event groups as operations of an assembler

Whatever the bytes are, reading groups makes of an assembler what some operations make of it:
`Assembler.Leads`. A group begins by finishing the hotspot before it, so the hotspots that were
there stay as they are. Behind the records of a group there are only records for the pointer and a
shape: the hotspot of the group is shown by the assembler from then on (`Assembler.Shows`).
-/

set_option autoImplicit false

namespace PointAndClick

namespace Assembler

variable {a b c : Assembler} {n : Nat} {h : OpenHotspot}

/-! ## Runs from one assembler to another -/

/-- Some operations make one assembler of another. -/
def Leads (a b : Assembler) : Prop := ∃ ops, b = run a ops

theorem Leads.refl (a : Assembler) : Leads a a := ⟨[], rfl⟩

theorem Leads.trans (h : Leads a b) (h' : Leads b c) : Leads a c := by
  obtain ⟨ops, rfl⟩ := h
  obtain ⟨ops', rfl⟩ := h'
  exact ⟨ops ++ ops', List.foldl_append.symm⟩

theorem leads_apply (a : Assembler) (op : Operation) : Leads a (op.apply a) := ⟨[op], rfl⟩

theorem Leads.hotspots (h : Leads a b) : a.hotspots <+: b.hotspots := by
  obtain ⟨ops, rfl⟩ := h
  exact prefix_run a ops

/-! ## A hotspot at its place -/

theorem getElem?_of_prefix {hotspots others : List Hotspot} (h : hotspots <+: others) {n : Nat}
    {x : Hotspot} (hx : hotspots[n]? = some x) : others[n]? = some x := by
  obtain ⟨hn, rfl⟩ := List.getElem?_eq_some_iff.mp hx
  exact List.prefix_iff_getElem?.mp h n hn

/-- A hotspot has a place in an assembler: it is the open one, or it was finished there. -/
def Shows (a : Assembler) (n : Nat) (h : OpenHotspot) : Prop :=
  a.current = some h ∧ a.hotspots.length = n ∨
    ∃ shape, a.hotspots[n]? = some (h.finished n shape)

theorem shows_of_current (hcurrent : a.current = some h) : Shows a a.hotspots.length h :=
  .inl ⟨hcurrent, rfl⟩

theorem Shows.close (hshows : Shows a n h) (shape : Shape) :
    Shows (a.close (some shape)) n h := by
  rcases hshows with ⟨hcurrent, rfl⟩ | ⟨shape', hfinished⟩
  · refine .inr ⟨some shape, ?_⟩
    simp [Assembler.close, hcurrent]
  · exact .inr ⟨shape', getElem?_of_prefix (prefix_close a _) hfinished⟩

/-- A hotspot to which something was added is there in the end. -/
theorem Shows.finish (hshows : Shows a n h) (hcontent : h.hasContent = true) :
    ∃ shape, a.finish.hotspots[n]? = some (h.finished n shape) := by
  rcases hshows with ⟨hcurrent, rfl⟩ | ⟨shape, hfinished⟩
  · refine ⟨none, ?_⟩
    simp [Assembler.finish, Assembler.close, hcurrent, hcontent]
  · exact ⟨shape, getElem?_of_prefix (prefix_close a none) hfinished⟩

end Assembler

namespace EventGroup

open Assembler

variable {b : Buffer} {p : Progress} {n : Nat} {h : OpenHotspot}

/-! ## How far reading comes -/

theorem le_readRecord (p : Progress) (add : Assembler → Record → Assembler) :
    p.pos ≤ (readRecord b p add).1.pos := by
  unfold readRecord
  split
  · next r after hdecode =>
      have htakes := (Record.takes_decode b p.pos r after hdecode).1
      show p.pos ≤ after
      omega
  · exact Nat.le_refl _

theorem le_readTipShape (limit : Nat) (p : Progress) :
    p.pos ≤ (readTipShape b limit p).pos := by
  have hskip := (skipPadding_bounds b limit p.pos).1
  unfold readTipShape
  dsimp only
  split
  · exact hskip
  · split
    · split
      · exact Nat.le_trans hskip (le_readRecord { p with pos := (skipPadding b limit p.pos).1 } _)
      · exact hskip
    · exact hskip

theorem le_readTipRest (limit : Nat) (p : Progress) : p.pos ≤ (readTipRest b limit p).pos := by
  unfold readTipRest
  split
  · exact Nat.le_refl _
  · split
    · have hread := le_readRecord (b := b) p Assembler.addHover
      split
      · next q e hrecord =>
          rw [hrecord] at hread
          exact hread
      · next q hrecord =>
          rw [hrecord] at hread
          exact Nat.le_trans hread (le_readTipShape limit q)
    · exact le_readTipShape limit p

/-! ## Operations -/

theorem leads_readRecord (p : Progress) {add : Assembler → Record → Assembler}
    (hadd : ∀ r, Leads p.assembler (add p.assembler r)) :
    Leads p.assembler (readRecord b p add).1.assembler := by
  unfold readRecord
  split
  · exact hadd _
  · exact Leads.refl _

theorem leads_readRecord_add (p : Progress) :
    Leads p.assembler (readRecord b p Assembler.add).1.assembler :=
  leads_readRecord p fun r => leads_apply _ (.add r)

theorem leads_readRecord_addHover (p : Progress) :
    Leads p.assembler (readRecord b p Assembler.addHover).1.assembler :=
  leads_readRecord p fun r => leads_apply _ (.addHover r)

theorem leads_readTipShape (limit : Nat) (p : Progress) :
    Leads p.assembler (readTipShape b limit p).assembler := by
  unfold readTipShape
  dsimp only
  split
  · exact Leads.refl _
  · split
    · split
      · exact leads_readRecord_add { p with pos := (skipPadding b limit p.pos).1 }
      · exact Leads.refl _
    · exact Leads.refl _

theorem leads_readTipRest (limit : Nat) (p : Progress) :
    Leads p.assembler (readTipRest b limit p).assembler := by
  unfold readTipRest
  split
  · exact Leads.refl _
  · split
    · have hread := leads_readRecord_addHover (b := b) p
      split
      · next q e hrecord =>
          rw [hrecord] at hread
          exact hread
      · next q hrecord =>
          rw [hrecord] at hread
          exact hread.trans (leads_readTipShape limit q)
    · exact leads_readTipShape limit p

theorem leads_readTipText (limit : Nat) (p : Progress) :
    Leads p.assembler (readTipText b limit p).assembler := by
  have hfirst := leads_readRecord_addHover (b := b) p
  rw [readTipText_eq_readTipRest]
  split
  · next q e hread =>
      rw [hread] at hfirst
      exact hfirst
  · next q hread =>
      rw [hread] at hfirst
      exact hfirst.trans (leads_readTipRest limit q)

theorem leads_readRecords (limit : Nat) (maxDistance : Int) (count : Nat) (p : Progress) :
    Leads p.assembler (readRecords b limit maxDistance count p).1.assembler := by
  induction count generalizing p with
  | zero => exact Leads.refl _
  | succ count ih =>
      rw [readRecords]
      split
      · exact Leads.refl _
      · next r after hnext =>
          have hadd : Leads p.assembler (p.assembler.add r) := leads_apply _ (.add r)
          split
          · exact hadd
          · refine Leads.trans ?_ (ih _)
            split
            · exact hadd
            · exact Leads.refl _

theorem leads_readTerminator (limit : Nat) (p : Progress) :
    Leads p.assembler (readTerminator b limit p).1.assembler := by
  unfold readTerminator
  dsimp only
  split
  · exact Leads.refl _
  · split
    · exact Leads.refl _
    · exact Leads.refl _
    · split
      · exact leads_readRecord_add { p with pos := (skipPadding b limit p.pos).1 }
      · split
        · exact leads_readTipText limit { p with pos := (skipPadding b limit p.pos).1 }
        · exact Leads.refl _

/-- Reading a group begins a hotspot, and goes on from there. -/
theorem leads_read (limit : Nat) (maxDistance : Int) (p : Progress) :
    Leads (p.assembler.begin (some (b.wordAt p.pos)) p.pos)
      (read b limit maxDistance p).1.assembler := by
  have hrecords : Leads (p.assembler.begin (some (b.wordAt p.pos)) p.pos)
      (readRecords b limit maxDistance (b.wordAt (p.pos + 4))
        ⟨p.pos + 8, p.assembler.begin (some (b.wordAt p.pos)) p.pos⟩).1.assembler :=
    leads_readRecords limit maxDistance _ _
  unfold read
  dsimp only
  split
  · next q hread =>
      rw [hread] at hrecords
      exact hrecords
  · next q hread =>
      rw [hread] at hrecords
      exact hrecords.trans (leads_readTerminator limit q)

/-- Reading groups is some operations, and the hotspots that finishing before would have given stay
as they are. -/
theorem leads_readMany (limit : Nat) (maxDistance : Int) (fuel groups : Nat) (p : Progress) :
    let out := (readMany b limit maxDistance fuel groups p).progress.assembler
    Leads p.assembler out ∧ p.assembler.finish.hotspots <+: out.finish.hotspots := by
  -- what a group adds comes behind the hotspots that finishing before it gives
  have hgroup (p : Progress) :
      Leads p.assembler (read b limit maxDistance p).1.assembler ∧
        p.assembler.finish.hotspots <+: (read b limit maxDistance p).1.assembler.hotspots := by
    have hread := leads_read (b := b) limit maxDistance p
    exact ⟨(leads_apply _ (.begin _ _)).trans hread, hread.hotspots⟩
  induction fuel generalizing groups p with
  | zero => exact ⟨Leads.refl _, List.prefix_refl _⟩
  | succ fuel ih =>
      rw [readMany]
      split
      · exact ⟨Leads.refl _, List.prefix_refl _⟩
      · dsimp only
        split
        · exact ⟨Leads.refl _, List.prefix_refl _⟩
        · split
          · obtain ⟨hleads, hkept⟩ := hgroup { p with pos := (skipPadding b limit p.pos).1 }
            split
            · next q e hread =>
                rw [hread] at hleads hkept
                exact ⟨hleads, hkept.trans (prefix_close q.assembler none)⟩
            · next q hread =>
                rw [hread] at hleads hkept
                obtain ⟨hrest, hstays⟩ := ih (groups + 1) q
                exact ⟨hleads.trans hrest,
                  (hkept.trans (prefix_close q.assembler none)).trans hstays⟩
          · exact ⟨Leads.refl _, List.prefix_refl _⟩

/-- Groups are only counted on. -/
theorem groups_le_readMany (limit : Nat) (maxDistance : Int) (fuel groups : Nat) (p : Progress) :
    groups ≤ (readMany b limit maxDistance fuel groups p).groups := by
  induction fuel generalizing groups p with
  | zero => exact Nat.le_refl _
  | succ fuel ih =>
      rw [readMany]
      split
      · exact Nat.le_refl _
      · dsimp only
        split
        · exact Nat.le_refl _
        · split
          · split
            · exact Nat.le_refl _
            · exact Nat.le_of_succ_le (ih _ _)
          · exact Nat.le_refl _

/-! ## The hotspot of a group -/

/-- Where the tag is that of a shape, a shape is read and closes the hotspot, or nothing is read. -/
theorem shows_readRecord_add (hshows : Shows p.assembler n h)
    (htag : isShapeTag (b.wordAt p.pos) = true) :
    Shows (readRecord b p Assembler.add).1.assembler n h := by
  unfold readRecord
  split
  · next r after hdecode =>
      obtain ⟨tag, points, hshape⟩ := Record.exists_shape_of_isShapeTag hdecode htag
      have hadd : p.assembler.add r = p.assembler.close (some (Shape.ofPoints points)) := by
        simp [Assembler.add, hshape]
      exact hadd ▸ hshows.close _
  · exact hshows

theorem shows_readTipShape (hshows : Shows p.assembler n h) (limit : Nat) :
    Shows (readTipShape b limit p).assembler n h := by
  unfold readTipShape
  dsimp only
  split
  · exact hshows
  · split
    · next tag hpeek =>
        split
        · next htag =>
            rw [peekTag_eq_some hpeek] at htag
            exact shows_readRecord_add (p := { p with pos := (skipPadding b limit p.pos).1 })
              hshows htag
        · exact hshows
    · exact hshows

/-- A record for the pointer goes to the open hotspot. -/
theorem readRecord_addHover (hcurrent : p.assembler.current = some h) :
    ∃ hover, h.hover <+: hover ∧ (readRecord b p Assembler.addHover).1.assembler =
      { p.assembler with current := some { h with hover } } := by
  unfold readRecord
  split
  · next r after hdecode =>
      refine ⟨h.hover ++ [r], List.prefix_append _ _, ?_⟩
      show p.assembler.addHover r = _
      rw [Assembler.addHover, Assembler.openAt, hcurrent, Option.getD_some]
  · exact ⟨h.hover, List.prefix_refl _, by rw [← hcurrent]⟩

/-- Behind a font record, the open hotspot only gets records for the pointer. -/
theorem shows_readTipRest (hcurrent : p.assembler.current = some h) (limit : Nat) :
    ∃ hover, h.hover <+: hover ∧
      Shows (readTipRest b limit p).assembler p.assembler.hotspots.length { h with hover } := by
  have hshows : Shows p.assembler p.assembler.hotspots.length h := shows_of_current hcurrent
  unfold readTipRest
  split
  · exact ⟨h.hover, List.prefix_refl _, hshows⟩
  · split
    · obtain ⟨hover, hle, hread⟩ := readRecord_addHover (b := b) hcurrent
      have hlast : Shows (readRecord b p Assembler.addHover).1.assembler
          p.assembler.hotspots.length { h with hover } := .inl (hread ▸ ⟨rfl, rfl⟩)
      refine ⟨hover, hle, ?_⟩
      split
      · next q e hrecord =>
          rw [hrecord] at hlast
          exact hlast
      · next q hrecord =>
          rw [hrecord] at hlast
          exact shows_readTipShape hlast limit
    · exact ⟨h.hover, List.prefix_refl _, shows_readTipShape hshows limit⟩

theorem shows_readTipText (hcurrent : p.assembler.current = some h) (limit : Nat) :
    ∃ hover, h.hover <+: hover ∧
      Shows (readTipText b limit p).assembler p.assembler.hotspots.length { h with hover } := by
  obtain ⟨first, hle, hfirst⟩ := readRecord_addHover (b := b) hcurrent
  rw [readTipText_eq_readTipRest]
  split
  · next q e hread =>
      rw [hread] at hfirst
      exact ⟨first, hle, .inl (hfirst ▸ ⟨rfl, rfl⟩)⟩
  · next q hread =>
      rw [hread] at hfirst
      obtain ⟨hover, hle', hshows⟩ := shows_readTipRest (b := b) (p := q)
        (h := { h with hover := first }) (hfirst ▸ rfl) limit
      have hplace : q.assembler.hotspots.length = p.assembler.hotspots.length := hfirst ▸ rfl
      exact ⟨hover, hle.trans hle', hplace ▸ hshows⟩

/-- Behind its records a group only gets records for the pointer and a shape. -/
theorem shows_readTerminator (hcurrent : p.assembler.current = some h) (limit : Nat) :
    ∃ hover, h.hover <+: hover ∧
      Shows (readTerminator b limit p).1.assembler p.assembler.hotspots.length
        { h with hover } := by
  have hself : ∃ hover, h.hover <+: hover ∧
      Shows p.assembler p.assembler.hotspots.length { h with hover } :=
    ⟨h.hover, List.prefix_refl _, shows_of_current hcurrent⟩
  unfold readTerminator
  dsimp only
  split
  · exact hself
  · split
    · exact hself
    · exact hself
    · next tag hpeek =>
        split
        · next htag =>
            rw [peekTag_eq_some hpeek] at htag
            refine ⟨h.hover, List.prefix_refl _, ?_⟩
            exact shows_readRecord_add (p := { p with pos := (skipPadding b limit p.pos).1 })
              (shows_of_current hcurrent) htag
        · split
          · exact shows_readTipText (p := { p with pos := (skipPadding b limit p.pos).1 })
              hcurrent limit
          · exact hself

end EventGroup

end PointAndClick
