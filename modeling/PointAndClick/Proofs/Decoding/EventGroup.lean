import PointAndClick.Hotspot.EventGroup
import PointAndClick.Proofs.Decoding.Progress
import PointAndClick.Proofs.Hotspot.Records

/-!
# Reading event groups from arbitrary bytes

Whatever the bytes are, reading groups moves forward inside the buffer, and the assembler holds
only commands from the bytes that were passed over, each at most once. Every step of reading keeps
this; a run of steps is `Reaches`.
-/

set_option autoImplicit false

namespace PointAndClick

/-! ## Records by their tags -/

namespace Record

theorem counts_of_isSimpleTag {b : Buffer} {pos after : Nat} {r : Record}
    (h : decode b pos = .ok (r, after)) (htag : isSimpleTag (b.wordAt pos) = true) : r.Counts := by
  have hpayload := (decode_eq_ok h).2
  rw [decodePayload_of_isSimpleTag htag] at hpayload
  obtain ⟨text, middle, -, hlast⟩ := Decoder.bind_eq_ok.mp hpayload
  simp only [Decoder.pure_apply, Except.ok.injEq, Prod.mk.injEq] at hlast
  rw [Counts, ← hlast.1]
  trivial

/-- What is decoded at the tag of a shape is a shape. -/
theorem exists_shape_of_isShapeTag {b : Buffer} {pos after : Nat} {r : Record}
    (h : decode b pos = .ok (r, after)) (htag : isShapeTag (b.wordAt pos) = true) :
    ∃ tag points, r.payload = .shape tag points := by
  have hpayload := (decode_eq_ok h).2
  rw [decodePayload_of_isShapeTag htag] at hpayload
  obtain ⟨count, middle, -, hrest⟩ := Decoder.bind_eq_ok.mp hpayload
  split at hrest
  · cases hrest
  · obtain ⟨points, last, -, hlast⟩ := Decoder.bind_eq_ok.mp hrest
    simp only [Decoder.pure_apply, Except.ok.injEq, Prod.mk.injEq] at hlast
    exact ⟨_, points, hlast.1.symm⟩

theorem isKept_of_isShapeTag {b : Buffer} {pos after : Nat} {r : Record}
    (h : decode b pos = .ok (r, after)) (htag : isShapeTag (b.wordAt pos) = true) :
    r.isKept = true := by
  obtain ⟨tag, points, hshape⟩ := exists_shape_of_isShapeTag h htag
  rw [isKept, hshape]

theorem search_bounds {b : Buffer} {limit tries pos after : Nat} {r : Record}
    (h : search b limit tries pos = some (r, after)) :
    pos ≤ r.offset ∧ r.offset + 4 ≤ after ∧ after ≤ limit := by
  induction tries generalizing pos with
  | zero => cases h
  | succ tries ih =>
      rw [search] at h
      split at h
      · cases h
      · split at h
        · next r' after' hdecode =>
            split at h
            · next hle =>
                cases h
                have hoffset := (decode_eq_ok hdecode).1
                have hbounds := (takes_decode b pos r after hdecode).1
                omega
            · have hbounds := ih h
              omega
        · have hbounds := ih h
          omega

end Record

namespace EventGroup

/-! ## Sound progress -/

/-- The assembler holds commands from the bytes between a position and the one that was reached,
which is inside the buffer. -/
structure Progress.Sound (b : Buffer) (low : Nat) (p : Progress) : Prop where
  assembler : p.assembler.Sound low p.pos
  low : low ≤ p.pos
  size : p.pos ≤ b.size

/-- Reading comes from one point to a later one, and stays sound. -/
def Reaches (b : Buffer) (low : Nat) (p q : Progress) : Prop :=
  p.Sound b low → q.Sound b low ∧ p.pos ≤ q.pos

theorem Reaches.refl (b : Buffer) (low : Nat) (p : Progress) : Reaches b low p p :=
  fun h => ⟨h, Nat.le_refl _⟩

theorem Reaches.trans {b : Buffer} {low : Nat} {p q r : Progress} (hpq : Reaches b low p q)
    (hqr : Reaches b low q r) : Reaches b low p r := by
  intro h
  obtain ⟨hq, hle⟩ := hpq h
  obtain ⟨hr, hle'⟩ := hqr hq
  exact ⟨hr, Nat.le_trans hle hle'⟩

variable {b : Buffer} {low : Nat}

/-- Bytes may be passed over. -/
theorem reaches_of_le {p : Progress} {pos : Nat} (hle : p.pos ≤ pos)
    (hsize : p.pos ≤ b.size → pos ≤ b.size) : Reaches b low p { p with pos } := by
  intro h
  have hlow := h.low
  exact ⟨⟨h.assembler.mono hle, Nat.le_trans h.low hle, hsize h.size⟩, hle⟩

/-! ## Padding -/

theorem paddingEnd_bounds (b : Buffer) (limit fuel pos : Nat) :
    pos ≤ paddingEnd b limit fuel pos ∧ (pos ≤ b.size → paddingEnd b limit fuel pos ≤ b.size) := by
  induction fuel generalizing pos with
  | zero => exact ⟨Nat.le_refl _, id⟩
  | succ fuel ih =>
      rw [paddingEnd]
      split
      · next h =>
          simp only [Bool.and_eq_true, decide_eq_true_eq] at h
          have hnext := ih (pos + 4)
          exact ⟨by omega, fun _ => hnext.2 h.1.1.2⟩
      · exact ⟨Nat.le_refl _, id⟩

theorem skipPadding_bounds (b : Buffer) (limit pos : Nat) :
    pos ≤ (skipPadding b limit pos).1 ∧
      (pos ≤ b.size → (skipPadding b limit pos).1 ≤ b.size) := by
  have hbounds := paddingEnd_bounds b limit (b.size / 4 + 1) pos
  unfold skipPadding
  dsimp only
  split <;> exact hbounds

theorem reaches_skipPadding (limit : Nat) (p : Progress) :
    Reaches b low p { p with pos := (skipPadding b limit p.pos).1 } :=
  reaches_of_le (skipPadding_bounds b limit p.pos).1 (skipPadding_bounds b limit p.pos).2

/-! ## Single records -/

theorem reaches_readRecord {p : Progress} {add : Assembler → Record → Assembler}
    (hadd : ∀ r after, Record.decode b p.pos = .ok (r, after) → r.offset = p.pos →
      low ≤ p.pos → p.assembler.Sound low p.pos → (add p.assembler r).Sound low (r.offset + 1)) :
    Reaches b low p (readRecord b p add).1 := by
  unfold readRecord
  split
  · next r after hdecode =>
      intro h
      have hoffset := (Record.decode_eq_ok hdecode).1
      obtain ⟨hlow, hsize⟩ := Record.takes_decode b p.pos r after hdecode
      have hsound := hadd r after hdecode hoffset h.low h.assembler
      have hnext : r.offset + 1 ≤ after := by omega
      have hle : p.pos ≤ after := by omega
      exact ⟨⟨hsound.mono hnext, Nat.le_trans h.low hle, hsize h.size⟩, hle⟩
  · exact Reaches.refl b low p

theorem reaches_readRecord_add {p : Progress} (htag : isShapeTag (b.wordAt p.pos) = true) :
    Reaches b low p (readRecord b p Assembler.add).1 :=
  reaches_readRecord fun _ _ hdecode hoffset hlow h =>
    h.add (Record.isKept_of_isShapeTag hdecode htag) hlow (by omega)

theorem reaches_readRecord_addHover {p : Progress} (htag : isSimpleTag (b.wordAt p.pos) = true) :
    Reaches b low p (readRecord b p Assembler.addHover).1 :=
  reaches_readRecord fun _ _ hdecode hoffset hlow h =>
    h.addHover (Record.counts_of_isSimpleTag hdecode htag) hlow (by omega)

/-- A tag that is seen stands at the position. -/
theorem peekTag_eq_some {limit pos tag : Nat} (h : peekTag b limit pos = .ok (some tag)) :
    tag = b.wordAt pos := by
  unfold peekTag at h
  split at h
  · cases h
  · split at h
    · cases h
    · cases h
      rfl

/-! ## Groups -/

theorem reaches_readTipShape (limit : Nat) (p : Progress) :
    Reaches b low p (readTipShape b limit p) := by
  refine (reaches_skipPadding limit p).trans ?_
  unfold readTipShape
  dsimp only
  split
  · exact Reaches.refl b low _
  · split
    · next tag hpeek =>
        split
        · next htag =>
            rw [peekTag_eq_some hpeek] at htag
            exact reaches_readRecord_add htag
        · exact Reaches.refl b low _
    · exact Reaches.refl b low _

theorem reaches_readTipText (limit : Nat) {p : Progress}
    (htag : isSimpleTag (b.wordAt p.pos) = true) : Reaches b low p (readTipText b limit p) := by
  have hfirst : Reaches b low p (readRecord b p Assembler.addHover).1 :=
    reaches_readRecord_addHover htag
  unfold readTipText
  split
  · next p' e hread =>
      rw [hread] at hfirst
      exact hfirst
  · next p' hread =>
      rw [hread] at hfirst
      refine hfirst.trans ?_
      split
      · exact Reaches.refl b low _
      · next tag hpeek =>
          split
          · next htext =>
              -- the tag that was seen is that of a text record
              have hsimple : isSimpleTag (b.wordAt p'.pos) = true := by
                cases tag with
                | none => cases htext
                | some tag =>
                    have hword : (tag : Int) = Command.playText := of_decide_eq_true htext
                    rw [← peekTag_eq_some hpeek, hword]
                    decide
              have hsecond : Reaches b low p' (readRecord b p' Assembler.addHover).1 :=
                reaches_readRecord_addHover hsimple
              split
              · next q e hread' =>
                  rw [hread'] at hsecond
                  exact hsecond
              · next q hread' =>
                  rw [hread'] at hsecond
                  exact hsecond.trans (reaches_readTipShape limit q)
          · exact reaches_readTipShape limit p'

/-- The next record of a group is added. -/
theorem reaches_next? {p : Progress} {limit : Nat} {maxDistance : Int} {r : Record} {after : Nat}
    (h : Record.next? b p.pos (some limit) maxDistance = some (r, after)) {a : Assembler}
    (ha : low ≤ p.pos → p.pos ≤ r.offset → p.assembler.Sound low p.pos →
      a.Sound low (r.offset + 1)) :
    Reaches b low p ⟨after, a⟩ := by
  intro hp
  have hbounds := Record.search_bounds h
  have hlimit : Record.limit b (some limit) ≤ b.size := Nat.min_le_right _ _
  have hnext : r.offset + 1 ≤ after := by omega
  have hle : p.pos ≤ after := by omega
  exact ⟨⟨(ha hp.low hbounds.1 hp.assembler).mono hnext, Nat.le_trans hp.low hle,
    Nat.le_trans hbounds.2.2 hlimit⟩, hle⟩

theorem reaches_readRecords (limit : Nat) (maxDistance : Int) (count : Nat) (p : Progress) :
    Reaches b low p (readRecords b limit maxDistance count p).1 := by
  induction count generalizing p with
  | zero => exact Reaches.refl b low p
  | succ count ih =>
      rw [readRecords]
      split
      · exact Reaches.refl b low p
      · next r after hnext =>
          have hadd : r.isKept = true → Reaches b low p ⟨after, p.assembler.add r⟩ := fun hkept =>
            reaches_next? hnext fun hlow hle h => h.add hkept hlow hle
          split
          -- a shape ends the records of the group
          · next tag points hpayload =>
              exact hadd (by rw [Record.isKept, hpayload])
          · refine Reaches.trans ?_ (ih _)
            split
            · next hkept => exact hadd hkept
            -- a record that is dropped is passed over all the same
            · exact reaches_next? hnext fun _ hle h => h.mono (by omega)

theorem reaches_readTerminator (limit : Nat) (p : Progress) :
    Reaches b low p (readTerminator b limit p).1 := by
  refine (reaches_skipPadding limit p).trans ?_
  unfold readTerminator
  dsimp only
  split
  · exact Reaches.refl b low _
  · split
    · exact Reaches.refl b low _
    · exact Reaches.refl b low _
    · next tag hpeek =>
        split
        · next htag =>
            rw [peekTag_eq_some hpeek] at htag
            exact reaches_readRecord_add htag
        · split
          · next hfont =>
              refine reaches_readTipText limit ?_
              rw [← peekTag_eq_some hpeek, hfont]
              decide
          · exact Reaches.refl b low _

/-- Behind the two words of a group, its records are read into a new hotspot. -/
theorem Progress.Sound.begin {p : Progress} (h : p.Sound b low) (hsize : p.pos + 8 ≤ b.size) :
    Progress.Sound b low ⟨p.pos + 8, p.assembler.begin (some (b.wordAt p.pos)) p.pos⟩ := by
  have hle : p.pos ≤ p.pos + 8 := Nat.le_add_right _ _
  exact ⟨(h.assembler.begin _ _).mono hle, Nat.le_trans h.low hle, hsize⟩

theorem reaches_read_begin (limit : Nat) (maxDistance : Int) (p : Progress) :
    Reaches b low ⟨p.pos + 8, p.assembler.begin (some (b.wordAt p.pos)) p.pos⟩
      (read b limit maxDistance p).1 := by
  have hrecords : Reaches b low ⟨p.pos + 8, p.assembler.begin (some (b.wordAt p.pos)) p.pos⟩
      (readRecords b limit maxDistance (b.wordAt (p.pos + 4))
        ⟨p.pos + 8, p.assembler.begin (some (b.wordAt p.pos)) p.pos⟩).1 :=
    reaches_readRecords limit maxDistance _ _
  unfold read
  dsimp only
  split
  · next q hread =>
      rw [hread] at hrecords
      exact hrecords
  · next q hread =>
      rw [hread] at hrecords
      exact hrecords.trans (reaches_readTerminator limit q)

/-- A group takes at least its two words. -/
theorem Progress.Sound.read {p : Progress} (h : p.Sound b low) (limit : Nat) (maxDistance : Int)
    (hsize : p.pos + 8 ≤ b.size) :
    (EventGroup.read b limit maxDistance p).1.Sound b low ∧
      p.pos + 8 ≤ (EventGroup.read b limit maxDistance p).1.pos :=
  reaches_read_begin limit maxDistance p (h.begin hsize)

theorem reaches_read (limit : Nat) (maxDistance : Int) {p : Progress}
    (hsize : p.pos + 8 ≤ b.size) : Reaches b low p (read b limit maxDistance p).1 := by
  intro h
  obtain ⟨hsound, hle⟩ := h.read limit maxDistance hsize
  exact ⟨hsound, Nat.le_trans (Nat.le_add_right _ _) hle⟩

/-- What looks like a group has its two words inside the buffer. -/
theorem add_eight_le_of_looksLike {pos : Nat} (h : looksLike b pos = true) :
    pos + 8 ≤ b.size := by
  simp only [looksLike, Bool.and_eq_true, decide_eq_true_eq] at h
  exact h.1.1.1.1

/-- Reading groups stays sound, whatever stops it. -/
theorem reaches_readMany (limit : Nat) (maxDistance : Int) (fuel groups : Nat) (p : Progress) :
    Reaches b low p (readMany b limit maxDistance fuel groups p).progress := by
  induction fuel generalizing groups p with
  | zero => exact Reaches.refl b low p
  | succ fuel ih =>
      rw [readMany]
      split
      · exact Reaches.refl b low p
      · refine (reaches_skipPadding limit p).trans ?_
        dsimp only
        split
        · exact Reaches.refl b low _
        · split
          · next hlooks =>
              have hgroup : Reaches b low { p with pos := (skipPadding b limit p.pos).1 }
                  (read b limit maxDistance { p with pos := (skipPadding b limit p.pos).1 }).1 :=
                reaches_read limit maxDistance (add_eight_le_of_looksLike hlooks)
              split
              · next q e hread =>
                  rw [hread] at hgroup
                  exact hgroup
              · next q hread =>
                  rw [hread] at hgroup
                  exact hgroup.trans (ih _ q)
          · exact Reaches.refl b low _

end EventGroup

end PointAndClick
