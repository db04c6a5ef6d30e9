import PointAndClick.Proofs.Decoding.NextRecord
import PointAndClick.Proofs.Decoding.Operations

/-!
# Event groups of a region

A region ends at its limit, or where the buffer ends before that. Whatever the bytes are, what is
read of a group and put into the assembler is read from inside the region: `EventGroup.Stays`. There
is one exception, and it comes last (`EventGroup.RunsOver`). The records of a group are searched
for inside the region, but its two words, the shape behind it and the records of a tip text are not:
where one of these begins inside the region it is read to its end.

With a limit beyond the buffer, reading ends with an error where zero words go on up to the end of
the buffer.
-/

set_option autoImplicit false

namespace PointAndClick.EventGroup

open Assembler

/-! ## Operations and their bytes -/

/-- An operation of reading comes from the bytes between two positions: it begins a group with its
two words, or it adds the record that decodes there. -/
inductive IsReadFrom (b : Buffer) : Operation → Nat → Nat → Prop
  | group {pos : Nat} (looks : looksLike b pos = true) :
      IsReadFrom b (.begin (some (b.wordAt pos)) pos) pos (pos + 8)
  | record {r : Record} {pos after : Nat} (decodes : Record.decode b pos = .ok (r, after)) :
      IsReadFrom b (.add r) pos after
  | hover {r : Record} {pos after : Nat} (decodes : Record.decode b pos = .ok (r, after)) :
      IsReadFrom b (.addHover r) pos after

/-- An operation whose bytes begin before the end of a region and run over it. The word of the tag
is inside, but of the two words of a group there may be none. -/
inductive Crosses (b : Buffer) (bound : Nat) : Operation → Nat → Nat → Prop
  | group {pos : Nat} (looks : looksLike b pos = true) (start : pos ≤ bound)
      (past : bound < pos + 8) : Crosses b bound (.begin (some (b.wordAt pos)) pos) pos (pos + 8)
  | shape {r : Record} {pos after : Nat} (tag : isShapeTag (b.wordAt pos) = true)
      (decodes : Record.decode b pos = .ok (r, after)) (start : pos + 4 ≤ bound)
      (past : bound < after) : Crosses b bound (.add r) pos after
  | tip {r : Record} {pos after : Nat}
      (tag : (b.wordAt pos : Int) = Command.font ∨ (b.wordAt pos : Int) = Command.playText)
      (decodes : Record.decode b pos = .ok (r, after)) (start : pos + 4 ≤ bound)
      (past : bound < after) : Crosses b bound (.addHover r) pos after

variable {b : Buffer} {bound limit : Nat} {p q r : Progress} {op : Operation}

theorem Crosses.bounds {first last : Nat} (h : Crosses b bound op first last)
    (hbound : bound ≤ b.size) : first ≤ bound ∧ bound < last ∧ last ≤ b.size := by
  cases h with
  | group looks start past => exact ⟨start, past, add_eight_le_of_looksLike looks⟩
  | shape tag decodes start past | tip tag decodes start past =>
      have htakes := (Record.takes_decode b first _ last decodes).2
      exact ⟨by omega, past, htakes (by omega)⟩

/-! ## Reading inside a region -/

/-- Reading from one point to another stays inside a region with a certain end: it stops where it
was or by the end, and what it puts into the assembler was read from bytes before the end. -/
structure Stays (b : Buffer) (bound : Nat) (p q : Progress) : Prop where
  le : p.pos ≤ q.pos
  pos : q.pos = p.pos ∨ q.pos ≤ bound
  operations : ∃ ops, q.assembler = run p.assembler ops ∧
    ∀ op ∈ ops, ∃ first last, IsReadFrom b op first last ∧ p.pos ≤ first ∧ last ≤ bound

/-- Reading from one point to another stays inside a region up to its last operation, which runs
over the end. -/
def RunsOver (b : Buffer) (bound : Nat) (p q : Progress) : Prop :=
  ∃ middle op, Stays b bound p middle ∧ Crosses b bound op middle.pos q.pos ∧
    q.assembler = op.apply middle.assembler

/-- Reading from one point to another stays inside the region of a limit, or runs over it in the
end. -/
def Reads (b : Buffer) (limit : Nat) (p q : Progress) : Prop :=
  Stays b (min limit b.size) p q ∨ RunsOver b (min limit b.size) p q

theorem Stays.refl (b : Buffer) (bound : Nat) (p : Progress) : Stays b bound p p :=
  ⟨Nat.le_refl _, .inl rfl, [], rfl, List.forall_mem_nil _⟩

/-- Bytes may be passed over. -/
theorem Stays.pass {pos : Nat} (hle : p.pos ≤ pos) (hpos : pos = p.pos ∨ pos ≤ bound) :
    Stays b bound p { p with pos } :=
  ⟨hle, hpos, [], rfl, List.forall_mem_nil _⟩

/-- An operation whose bytes are inside the region, with the bytes before it passed over. -/
theorem Stays.operation {first last : Nat} (h : IsReadFrom b op first last) (hle : p.pos ≤ first)
    (hfirst : first ≤ last) (hlast : last ≤ bound) :
    Stays b bound p ⟨last, op.apply p.assembler⟩ := by
  refine ⟨Nat.le_trans hle hfirst, .inr hlast, [op], rfl, fun op' hop => ?_⟩
  rw [List.mem_singleton.mp hop]
  exact ⟨first, last, h, hle, hlast⟩

theorem Stays.trans (h : Stays b bound p q) (h' : Stays b bound q r) : Stays b bound p r := by
  obtain ⟨ops, hrun, hops⟩ := h.operations
  obtain ⟨ops', hrun', hops'⟩ := h'.operations
  refine ⟨Nat.le_trans h.le h'.le, ?_, ops ++ ops', ?_, fun op hop => ?_⟩
  · rcases h'.pos with hsame | hbound
    · rw [hsame]
      exact h.pos
    · exact .inr hbound
  · rw [hrun', hrun]
    exact List.foldl_append.symm
  · rcases List.mem_append.mp hop with hop | hop
    · exact hops op hop
    · obtain ⟨first, last, hread, hfirst, hlast⟩ := hops' op hop
      exact ⟨first, last, hread, Nat.le_trans h.le hfirst, hlast⟩

theorem RunsOver.bounds (h : RunsOver b bound p q) (hbound : bound ≤ b.size) :
    p.pos ≤ q.pos ∧ bound < q.pos ∧ q.pos ≤ b.size := by
  obtain ⟨middle, op, hstays, hcrosses, -⟩ := h
  obtain ⟨hfirst, hover, hsize⟩ := hcrosses.bounds hbound
  have hle := hstays.le
  exact ⟨by omega, hover, hsize⟩

/-- What stays inside its region does not run over the end. -/
theorem RunsOver.not_stays (h : RunsOver b bound p q) (hbound : bound ≤ b.size) :
    ¬Stays b bound p q := by
  intro hstays
  obtain ⟨middle, op, hmiddle, hcrosses, -⟩ := h
  obtain ⟨hfirst, hpast, -⟩ := hcrosses.bounds hbound
  have hle := hmiddle.le
  have hpos := hstays.pos
  omega

theorem Stays.reads (h : Stays b (min limit b.size) p q) : Reads b limit p q := .inl h

theorem Reads.le (h : Reads b limit p q) : p.pos ≤ q.pos := by
  rcases h with hstays | hover
  · exact hstays.le
  · exact (hover.bounds (Nat.min_le_right _ _)).1

theorem Reads.le_size (h : Reads b limit p q) (hsize : p.pos ≤ b.size) : q.pos ≤ b.size := by
  rcases h with hstays | hover
  · have hpos := hstays.pos
    omega
  · exact (hover.bounds (Nat.min_le_right _ _)).2.2

theorem Stays.trans_reads (h : Stays b (min limit b.size) p q) (h' : Reads b limit q r) :
    Reads b limit p r := by
  rcases h' with hstays | ⟨middle, op, hstays, hcrosses, happly⟩
  · exact .inl (h.trans hstays)
  · exact .inr ⟨middle, op, h.trans hstays, hcrosses, happly⟩

/-- Reading goes on from a point to the next one, and behind the limit it does nothing. -/
theorem Reads.trans (h : Reads b limit p q) (hover : limit < q.pos → r = q)
    (h' : Reads b limit q r) : Reads b limit p r := by
  rcases h with hstays | hruns
  · exact hstays.trans_reads h'
  · obtain ⟨-, hbound, hsize⟩ := hruns.bounds (Nat.min_le_right _ _)
    rw [hover (by omega)]
    exact .inr hruns

/-! ## Padding and tags -/

theorem paddingEnd_le (b : Buffer) (limit fuel pos : Nat) :
    paddingEnd b limit fuel pos = pos ∨ paddingEnd b limit fuel pos ≤ min limit b.size := by
  induction fuel generalizing pos with
  | zero => exact .inl rfl
  | succ fuel ih =>
      rw [paddingEnd]
      split
      · next h =>
          simp only [Bool.and_eq_true, decide_eq_true_eq] at h
          have hnext := ih (pos + 4)
          exact .inr (by omega)
      · exact .inl rfl

theorem stays_skipPadding (limit : Nat) (p : Progress) :
    Stays b (min limit b.size) p { p with pos := (skipPadding b limit p.pos).1 } := by
  refine .pass (skipPadding_bounds b limit p.pos).1 ?_
  have hend := paddingEnd_le b limit (b.size / 4 + 1) p.pos
  unfold skipPadding
  dsimp only
  split <;> exact hend

theorem skipPadding_of_lt {pos : Nat} (h : limit < pos + 4) :
    skipPadding b limit pos = (pos, .ok ()) := by
  have hlimit : decide (pos + 4 ≤ limit) = false := decide_eq_false (by omega)
  simp only [skipPadding, paddingEnd, hlimit, Bool.false_and, Bool.false_eq_true, if_false]

/-- Only the end of the buffer stops zero words with an error, before a limit beyond it. -/
theorem skipPadding_eq_error {pos : Nat} {e : DecodeError}
    (h : (skipPadding b limit pos).2 = .error e) :
    e = .peekOutside (skipPadding b limit pos).1 ∧ (skipPadding b limit pos).1 + 4 ≤ limit ∧
      b.size < (skipPadding b limit pos).1 + 4 := by
  unfold skipPadding at h ⊢
  dsimp only at h ⊢
  split at h
  · next hend =>
      cases h
      rw [if_pos hend]
      rw [Bool.and_eq_true, decide_eq_true_eq, decide_eq_true_eq] at hend
      exact ⟨rfl, hend⟩
  · cases h

theorem peekTag_of_lt {pos : Nat} (h : limit < pos + 4) : peekTag b limit pos = .ok none :=
  if_pos h

theorem peekTag_room {pos tag : Nat} (h : peekTag b limit pos = .ok (some tag)) :
    pos + 4 ≤ min limit b.size := by
  unfold peekTag at h
  split at h
  · cases h
  · split at h
    · cases h
    · omega

/-! ## Records behind those of a group -/

/-- A record that is read whatever its end: it is inside the region, or it crosses the end. -/
theorem reads_readRecord {operation : Record → Operation}
    (hread : ∀ r after, Record.decode b p.pos = .ok (r, after) →
      IsReadFrom b (operation r) p.pos after ∧
        (min limit b.size < after → Crosses b (min limit b.size) (operation r) p.pos after)) :
    Reads b limit p (readRecord b p fun a r => (operation r).apply a).1 := by
  unfold readRecord
  cases hdecode : Record.decode b p.pos with
  | error e => exact (Stays.refl b _ p).reads
  | ok found =>
      obtain ⟨r, after⟩ := found
      have htakes := (Record.takes_decode b p.pos r after hdecode).1
      obtain ⟨hfrom, hcrosses⟩ := hread r after hdecode
      by_cases hend : after ≤ min limit b.size
      · exact (Stays.operation hfrom (Nat.le_refl _) (by omega) hend).reads
      · exact .inr ⟨p, operation r, Stays.refl b _ p, hcrosses (by omega), rfl⟩

theorem reads_readShape (htag : isShapeTag (b.wordAt p.pos) = true)
    (hroom : p.pos + 4 ≤ min limit b.size) :
    Reads b limit p (readRecord b p Assembler.add).1 := by
  have hread := reads_readRecord (p := p) (b := b) fun r after hdecode =>
    ⟨IsReadFrom.record hdecode, fun hover => Crosses.shape htag hdecode hroom hover⟩
  exact hread

theorem reads_readHover
    (htag : (b.wordAt p.pos : Int) = Command.font ∨ (b.wordAt p.pos : Int) = Command.playText)
    (hroom : p.pos + 4 ≤ min limit b.size) :
    Reads b limit p (readRecord b p Assembler.addHover).1 := by
  have hread := reads_readRecord (p := p) (b := b) fun r after hdecode =>
    ⟨IsReadFrom.hover hdecode, fun hover => Crosses.tip htag hdecode hroom hover⟩
  exact hread

theorem readTipShape_of_lt (h : limit < p.pos + 4) : readTipShape b limit p = p := by
  simp only [readTipShape, skipPadding_of_lt h, peekTag_of_lt h]

theorem reads_readTipShape (limit : Nat) (p : Progress) :
    Reads b limit p (readTipShape b limit p) := by
  refine (stays_skipPadding limit p).trans_reads ?_
  unfold readTipShape
  dsimp only
  split
  · exact (Stays.refl b _ _).reads
  · split
    · next tag hpeek =>
        split
        · next htag =>
            rw [peekTag_eq_some hpeek] at htag
            exact reads_readShape (p := { p with pos := (skipPadding b limit p.pos).1 }) htag
              (peekTag_room hpeek)
        · exact (Stays.refl b _ _).reads
    · exact (Stays.refl b _ _).reads

theorem readTipRest_of_lt (h : limit < p.pos + 4) : readTipRest b limit p = p := by
  rw [readTipRest, peekTag_of_lt h]
  exact readTipShape_of_lt h

theorem reads_readTipRest (limit : Nat) (p : Progress) :
    Reads b limit p (readTipRest b limit p) := by
  unfold readTipRest
  split
  · exact (Stays.refl b _ p).reads
  · next tag hpeek =>
      split
      · next htext =>
          cases tag with
          | none => cases htext
          | some tag =>
              have hword : (tag : Int) = Command.playText := of_decide_eq_true htext
              rw [peekTag_eq_some hpeek] at hword
              have hread := reads_readHover (.inr hword) (peekTag_room hpeek)
              split
              · next q e hrecord =>
                  rw [hrecord] at hread
                  exact hread
              · next q hrecord =>
                  rw [hrecord] at hread
                  -- behind a text record that runs over the end, no shape is looked for
                  have hrest (hover : limit < q.pos) : readTipShape b limit q = q :=
                    readTipShape_of_lt (by omega)
                  exact hread.trans hrest (reads_readTipShape limit q)
      · exact reads_readTipShape limit p

theorem reads_readTipText (htag : (b.wordAt p.pos : Int) = Command.font)
    (hroom : p.pos + 4 ≤ min limit b.size) : Reads b limit p (readTipText b limit p) := by
  have hread := reads_readHover (.inl htag) hroom
  rw [readTipText_eq_readTipRest]
  split
  · next q e hrecord =>
      rw [hrecord] at hread
      exact hread
  · next q hrecord =>
      rw [hrecord] at hread
      have hrest (hover : limit < q.pos) : readTipRest b limit q = q :=
        readTipRest_of_lt (by omega)
      exact hread.trans hrest (reads_readTipRest limit q)

/-- Behind its records, a group may run over the end of the region. -/
theorem reads_readTerminator (limit : Nat) (p : Progress) :
    Reads b limit p (readTerminator b limit p).1 := by
  refine (stays_skipPadding limit p).trans_reads ?_
  unfold readTerminator
  dsimp only
  split
  · exact (Stays.refl b _ _).reads
  · split
    · exact (Stays.refl b _ _).reads
    · exact (Stays.refl b _ _).reads
    · next tag hpeek =>
        -- the word of the tag is inside the region, and what it begins may run over the end
        have hroom := peekTag_room hpeek
        split
        · next htag =>
            rw [peekTag_eq_some hpeek] at htag
            exact reads_readShape (p := { p with pos := (skipPadding b limit p.pos).1 }) htag hroom
        · split
          · next hfont =>
              rw [peekTag_eq_some hpeek] at hfont
              exact reads_readTipText (p := { p with pos := (skipPadding b limit p.pos).1 }) hfont
                hroom
          · exact (Stays.refl b _ _).reads

/-! ## Groups -/

/-- The records of a group are searched for, and found inside the region. -/
theorem stays_readRecords (limit : Nat) (maxDistance : Int) (count : Nat) (p : Progress) :
    Stays b (min limit b.size) p (readRecords b limit maxDistance count p).1 := by
  induction count generalizing p with
  | zero => exact Stays.refl b _ p
  | succ count ih =>
      rw [readRecords]
      split
      · exact Stays.refl b _ p
      · next r after hnext =>
          obtain ⟨hlow, -, htag, hdecode, hend, -⟩ := Record.nearest_of_search hnext
          have htakes := (Record.takes_decode b r.offset r after hdecode).1
          have hbound : after ≤ min limit b.size := hend
          have hadd : Stays b (min limit b.size) p ⟨after, p.assembler.add r⟩ :=
            .operation (.record hdecode) hlow (by omega) hbound
          split
          -- a shape ends the records of the group
          · exact hadd
          · refine Stays.trans ?_ (ih _)
            split
            · exact hadd
            -- a record that is dropped is passed over all the same
            · exact .pass (by omega) (.inr hbound)

theorem next?_of_lt {pos : Nat} (maxDistance : Int) (h : limit < pos + 4) :
    Record.next? b pos (some limit) maxDistance = none := by
  have hlimit : Record.limit b (some limit) ≤ limit := Nat.min_le_left _ _
  exact Record.search_eq_none (by omega) _

/-- Where the region ends in the two words of a group, only these are read. -/
theorem read_of_lt (maxDistance : Int) (hlooks : looksLike b p.pos = true)
    (h : limit < p.pos + 8) :
    read b limit maxDistance p =
      (⟨p.pos + 8, p.assembler.begin (some (b.wordAt p.pos)) p.pos⟩, .ok ()) := by
  have hcount : 0 < b.wordAt (p.pos + 4) := by
    simp only [looksLike, Bool.and_eq_true, decide_eq_true_eq] at hlooks
    exact hlooks.1.1.2
  -- there is at least one record to look for, and no room for it
  have hnext : Record.next? b (p.pos + 8) (some limit) maxDistance = none :=
    next?_of_lt maxDistance (by omega)
  obtain ⟨count, hsucc⟩ := Nat.exists_eq_succ_of_ne_zero (Nat.pos_iff_ne_zero.mp hcount)
  simp only [read, hsucc, readRecords, hnext]

/-- Behind its two words, a group is read inside the region, or it runs over the end behind its
records. -/
theorem reads_read_begin (limit : Nat) (maxDistance : Int) (p : Progress) :
    Reads b limit ⟨p.pos + 8, p.assembler.begin (some (b.wordAt p.pos)) p.pos⟩
      (read b limit maxDistance p).1 := by
  have hrecords := stays_readRecords (b := b) limit maxDistance (b.wordAt (p.pos + 4))
    ⟨p.pos + 8, p.assembler.begin (some (b.wordAt p.pos)) p.pos⟩
  unfold read
  dsimp only
  split
  · next q hread =>
      rw [hread] at hrecords
      exact hrecords.reads
  · next q hread =>
      rw [hread] at hrecords
      exact hrecords.trans_reads (reads_readTerminator limit q)

/-- A group that begins by the end of the region is read inside the region, or it runs over the end
with its two words or behind its records. -/
theorem reads_read (maxDistance : Int) (hlooks : looksLike b p.pos = true)
    (hstart : p.pos ≤ min limit b.size) :
    Reads b limit p (read b limit maxDistance p).1 := by
  have hsize := add_eight_le_of_looksLike hlooks
  by_cases hwords : p.pos + 8 ≤ min limit b.size
  · have hbegin : Stays b (min limit b.size) p
        ⟨p.pos + 8, p.assembler.begin (some (b.wordAt p.pos)) p.pos⟩ :=
      .operation (.group hlooks) (Nat.le_refl _) (Nat.le_add_right _ _) hwords
    exact hbegin.trans_reads (reads_read_begin limit maxDistance p)
  · have hover : min limit b.size < p.pos + 8 := by omega
    rw [read_of_lt maxDistance hlooks (by omega)]
    exact .inr ⟨p, _, Stays.refl b _ p, .group hlooks hstart hover, rfl⟩

/-- Behind zero words, what looks like a group begins by the end of the region. -/
theorem start_le_of_looksLike (hroom : p.pos + 8 ≤ limit)
    (hlooks : looksLike b (skipPadding b limit p.pos).1 = true) :
    (skipPadding b limit p.pos).1 ≤ min limit b.size := by
  have hsize := add_eight_le_of_looksLike hlooks
  have hpos := (stays_skipPadding (b := b) limit p).pos
  dsimp only at hpos
  omega

theorem readMany_of_lt (maxDistance : Int) (fuel groups : Nat) (h : limit < p.pos + 8) :
    readMany b limit maxDistance fuel groups p = { progress := p, groups } := by
  cases fuel with
  | zero => rfl
  | succ fuel => rw [readMany, if_pos h]

/-- Reading groups stays inside the region, up to the last thing that is read. -/
theorem reads_readMany (limit : Nat) (maxDistance : Int) (fuel groups : Nat) (p : Progress) :
    Reads b limit p (readMany b limit maxDistance fuel groups p).progress := by
  induction fuel generalizing groups p with
  | zero => exact (Stays.refl b _ p).reads
  | succ fuel ih =>
      rw [readMany]
      split
      · exact (Stays.refl b _ p).reads
      · next hroom =>
          refine (stays_skipPadding limit p).trans_reads ?_
          dsimp only
          split
          · exact (Stays.refl b _ _).reads
          · split
            · next hlooks =>
                have hgroup := reads_read (p := { p with pos := (skipPadding b limit p.pos).1 })
                  maxDistance hlooks (start_le_of_looksLike (by omega) hlooks)
                split
                · next q e hread =>
                    rw [hread] at hgroup
                    exact hgroup
                · next q hread =>
                    rw [hread] at hgroup
                    -- behind the limit, no further group is tried
                    have hrest (hover : limit < q.pos) :
                        (readMany b limit maxDistance fuel (groups + 1) q).progress = q := by
                      rw [readMany_of_lt maxDistance fuel (groups + 1) (by omega)]
                    exact hgroup.trans hrest (ih (groups + 1) q)
            · exact (Stays.refl b _ _).reads

/-- If an error ended the reading, it is that of zero words up to the end of the buffer, before a
limit beyond it. -/
def Outcome.FailsAtEnd (b : Buffer) (limit : Nat) (out : Outcome) : Prop :=
  ∀ e, out.error = some e → e = .peekOutside out.progress.pos ∧
    out.progress.pos + 4 ≤ limit ∧ b.size < out.progress.pos + 4

theorem failsAtEnd_of_none {out : Outcome} (h : out.error = none) : out.FailsAtEnd b limit := by
  intro e he
  rw [h] at he
  cases he

theorem failsAtEnd_readMany (limit : Nat) (maxDistance : Int) (fuel groups : Nat) (p : Progress) :
    (readMany b limit maxDistance fuel groups p).FailsAtEnd b limit := by
  induction fuel generalizing groups p with
  | zero => exact failsAtEnd_of_none rfl
  | succ fuel ih =>
      rw [readMany]
      split
      · exact failsAtEnd_of_none rfl
      · dsimp only
        split
        · next e hskip =>
            rintro _ ⟨⟩
            exact skipPadding_eq_error hskip
        · split
          · split
            -- the error of a group that is cut short does not leave the reading
            · exact failsAtEnd_of_none rfl
            · exact ih _ _
          · exact failsAtEnd_of_none rfl

/-! ## Reading all groups -/

/-- More steps than the bytes that are left ask for change nothing. -/
theorem readMany_add (limit : Nat) (maxDistance : Int) (extra : Nat) {fuel groups : Nat}
    {p : Progress} (hp : p.pos ≤ b.size) (h : b.size < p.pos + 8 * fuel) :
    readMany b limit maxDistance (fuel + extra) groups p =
      readMany b limit maxDistance fuel groups p := by
  induction fuel generalizing groups p with
  | zero => omega
  | succ fuel ih =>
      rw [Nat.add_right_comm, readMany, readMany]
      split
      · rfl
      · next hroom =>
          have hskip := skipPadding_bounds b limit p.pos
          dsimp only
          split
          · rfl
          · split
            · next hlooks =>
                have hstart := start_le_of_looksLike (p := p) (by omega) hlooks
                have hsize := (reads_read (p := { p with pos := (skipPadding b limit p.pos).1 })
                  maxDistance hlooks hstart).le_size (hskip.2 hp)
                -- a group takes at least 8 bytes, so that the steps left are enough for the bytes left
                have hwords := (reads_read_begin (b := b) limit maxDistance
                  { p with pos := (skipPadding b limit p.pos).1 }).le
                split
                · rfl
                · next q hread =>
                    rw [hread] at hsize hwords
                    dsimp only at hsize hwords
                    exact ih hsize (by omega)
            · rfl

/-- The limit of reading all groups up to `stop`. It may be beyond the buffer. -/
def reach (b : Buffer) (stop : Option Int) : Nat :=
  match stop with
  | none => b.size
  | some stop => stop.toNat

theorem limit_eq_min_reach (b : Buffer) (stop : Option Int) :
    Record.limit b stop = min (reach b stop) b.size := by
  cases stop with
  | none => exact (Nat.min_self _).symm
  | some stop => rfl

theorem readAll_eq (b : Buffer) (stop : Option Int) (maxDistance : Int) (p : Progress) :
    readAll b stop maxDistance p =
      readMany b (reach b stop) maxDistance (b.size / 8 + 1) 0 p := by
  cases stop <;> rfl

/-- Reading all groups ends by itself. The only error is that of zero words up to the end of the
buffer, before a limit beyond it. What is read is inside the region, unless the region ends before
the buffer and the last operation runs over its end. So all is well where the region ends with the
buffer. -/
theorem readAll_region {p : Progress} (hp : p.pos ≤ b.size) (stop : Option Int)
    (maxDistance : Int) :
    let out := readAll b stop maxDistance p
    let bound := Record.limit b stop
    (∀ extra, readMany b (reach b stop) maxDistance (b.size / 8 + 1 + extra) 0 p = out) ∧
      out.FailsAtEnd b (reach b stop) ∧
      (Stays b bound p out.progress ↔ ¬RunsOver b bound p out.progress) ∧
      (RunsOver b bound p out.progress → reach b stop < b.size) ∧
      (reach b stop = b.size → out.error = none ∧ Stays b bound p out.progress) := by
  rw [readAll_eq, limit_eq_min_reach]
  intro out bound
  have hbound : bound ≤ b.size := Nat.min_le_right _ _
  have hreads : Reads b (reach b stop) p out.progress :=
    reads_readMany (reach b stop) maxDistance (b.size / 8 + 1) 0 p
  have hfails : out.FailsAtEnd b (reach b stop) :=
    failsAtEnd_readMany (reach b stop) maxDistance (b.size / 8 + 1) 0 p
  have hstays : Stays b bound p out.progress ↔ ¬RunsOver b bound p out.progress := by
    constructor
    · intro h hruns
      exact hruns.not_stays hbound h
    · intro hnot
      exact hreads.resolve_right hnot
  have hbefore (hruns : RunsOver b bound p out.progress) : reach b stop < b.size := by
    obtain ⟨-, hpast, hsize⟩ := hruns.bounds hbound
    omega
  refine ⟨fun extra => readMany_add _ maxDistance extra hp (by omega), hfails, hstays, hbefore, ?_⟩
  intro hend
  constructor
  · cases herror : out.error with
    | none => rfl
    | some e =>
        obtain ⟨-, hroom, hshort⟩ := hfails e herror
        omega
  · refine hstays.mpr fun hruns => ?_
    have hlt := hbefore hruns
    omega

/-- A group with one record and a shape of one point behind it. -/
def framed : Buffer :=
  #[1, 0, 0, 0, 1, 0, 0, 0, 11, 0, 0, 0, 1, 0, 0, 0, 0x61,
    100, 0, 0, 0, 1, 0, 0, 0, 7, 0, 0, 0, 8, 0, 0, 0]

/-- In a region that ends behind the tag of the shape, the shape is read to its end; in the whole
buffer all is well. -/
theorem readAll_region_framed :
    0 ≤ framed.size ∧
      RunsOver framed 21 ⟨0, { flat := false }⟩
        (readAll framed (some 21) 4096 ⟨0, { flat := false }⟩).progress ∧
      Stays framed framed.size ⟨0, { flat := false }⟩
        (readAll framed none 4096 ⟨0, { flat := false }⟩).progress := by
  have hstart : (⟨0, { flat := false }⟩ : Progress).pos ≤ framed.size := Nat.zero_le _
  obtain ⟨-, -, hstays, -, -⟩ := readAll_region hstart (some 21) 4096
  obtain ⟨-, -, -, -, hwhole⟩ := readAll_region hstart none 4096
  have hpos : (readAll framed (some 21) 4096 ⟨0, { flat := false }⟩).progress.pos = 33 := by
    decide +kernel
  refine ⟨Nat.zero_le _, ?_, (hwhole rfl).2⟩
  refine Classical.not_not.mp fun hnot => ?_
  have hend := (hstays.mpr hnot).pos
  rw [hpos] at hend
  exact absurd hend (by decide)

/-- Reading does not always stay in its region without an error. -/
theorem not_forall_readAll_stays :
    (¬∀ (b : Buffer) (stop : Option Int) (maxDistance : Int) (p : Progress), p.pos ≤ b.size →
      (readAll b stop maxDistance p).error = none) ∧
    ¬∀ (b : Buffer) (stop : Option Int) (maxDistance : Int) (p : Progress), p.pos ≤ b.size →
      Stays b (Record.limit b stop) p (readAll b stop maxDistance p).progress := by
  constructor
  -- zero words are looked for beyond the end of an empty buffer
  · intro h
    have herror := h #[] (some 8) 4096 ⟨0, { flat := false }⟩ (Nat.le_refl _)
    exact absurd herror (by decide +kernel)
  · intro h
    have hpos := (h framed (some 21) 4096 ⟨0, { flat := false }⟩ (Nat.zero_le _)).pos
    exact absurd hpos (by decide +kernel)

end PointAndClick.EventGroup
