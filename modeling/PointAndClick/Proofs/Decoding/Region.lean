import PointAndClick.Proofs.Decoding.NextRecord

/-!
# The records of a region

The records that are read from a region stand in a row: each was decoded where it starts, and the
next one starts behind it (`Record.Row`). Which ones they are is said by an equation for the whole
loop: the next record, and then the records of the region behind it. Where the region holds nothing
but the written forms of some records, these are the ones that are read.
-/

set_option autoImplicit false

namespace PointAndClick.Record

variable {b : Buffer}

/-! ## The bytes of a record -/

/-- The position behind the written form of a record. -/
def stop (r : Record) : Nat := r.offset + r.payload.encode.length

/-- What decodes at a position is a record that starts there, and it takes its written form. -/
theorem offset_stop_of_decode {pos after : Nat} {r : Record}
    (h : decode b pos = .ok (r, after)) : r.offset = pos ∧ r.stop = after := by
  obtain ⟨-, hoffset, hbetween⟩ := decode_eq_ok_iff.mp h
  refine ⟨hoffset, ?_⟩
  rw [stop, hoffset, hbetween.stop_eq]

/-- The complex records that are kept are those with one of some codes. -/
theorem mem_keptCodes_of_isKept {r : Record} (h : r.isKept = true) {code : Int} {text : String}
    (hpayload : r.payload = .complex code text) : code ∈ keptCodes := by
  rw [isKept, hpayload] at h
  exact List.contains_iff_mem.mp h

/-! ## Records in a row -/

/-- Records in a row between two positions: each one was decoded where it starts, and the next one
starts behind it. -/
inductive Row (b : Buffer) (high : Nat) : Nat → List Record → Prop
  | nil {low : Nat} : Row b high low []
  | cons {low : Nat} {r : Record} {rs : List Record} (hlow : low ≤ r.offset)
      (hdecode : decode b r.offset = .ok (r, r.stop)) (hhigh : r.stop ≤ high)
      (hrest : Row b high r.stop rs) : Row b high low (r :: rs)

theorem Row.mono {low low' high : Nat} {rs : List Record} (h : Row b high low rs)
    (hle : low' ≤ low) : Row b high low' rs := by
  cases h with
  | nil => exact .nil
  | cons hlow hdecode hhigh hrest => exact .cons (Nat.le_trans hle hlow) hdecode hhigh hrest

theorem Row.inside {low high : Nat} {rs : List Record} (h : Row b high low rs) :
    ∀ r ∈ rs, low ≤ r.offset ∧ decode b r.offset = .ok (r, r.stop) ∧ r.stop ≤ high := by
  induction h with
  | nil => exact fun r hr => nomatch hr
  | @cons low first rest hlow hdecode hhigh hrest ih =>
      intro r hr
      rcases List.mem_cons.mp hr with rfl | hr
      · exact ⟨hlow, hdecode, hhigh⟩
      · have hinside := ih r hr
        have hle : first.offset ≤ first.stop := Nat.le_add_right _ _
        exact ⟨by omega, hinside.2⟩

theorem Row.pairwise {low high : Nat} {rs : List Record} (h : Row b high low rs) :
    rs.Pairwise fun r s => r.stop ≤ s.offset := by
  induction h with
  | nil => exact .nil
  | cons hlow hdecode hhigh hrest ih =>
      exact List.pairwise_cons.mpr ⟨fun s hs => (hrest.inside s hs).1, ih⟩

/-- The records that are read from a region are kept ones in a row. -/
theorem row_collect (limit : Nat) (maxDistance : Int) (fuel pos : Nat) :
    Row b limit pos (collect b limit maxDistance fuel pos).1 ∧
      ∀ r ∈ (collect b limit maxDistance fuel pos).1, r.isKept = true := by
  induction fuel generalizing pos with
  | zero => exact ⟨.nil, List.forall_mem_nil _⟩
  | succ fuel ih =>
      rw [collect]
      split
      · exact ⟨.nil, List.forall_mem_nil _⟩
      · next r after hsearch =>
          obtain ⟨hlow, -, -, hdecode, hhigh, -⟩ := nearest_of_search hsearch
          obtain ⟨-, rfl⟩ := offset_stop_of_decode hdecode
          obtain ⟨hrow, hkept⟩ := ih r.stop
          by_cases hr : r.isKept = true
          · simp only [if_pos hr]
            exact ⟨.cons hlow hdecode hhigh hrow, List.forall_mem_cons.mpr ⟨hr, hkept⟩⟩
          -- a record that is dropped leaves a gap in the row
          · have hgap : pos ≤ r.stop := Nat.le_trans hlow (Nat.le_add_right _ _)
            simp only [if_neg hr]
            exact ⟨hrow.mono hgap, hkept⟩

/-! ## The whole region -/

/-- Reading a region is taking up the next record and reading the region behind it. -/
theorem all_eq (b : Buffer) (start : Nat) (stop : Option Int) (maxDistance : Int) :
    all b start stop maxDistance =
      match next? b start stop maxDistance with
      | none => ([], start)
      | some (r, after) =>
          let (records, last) := all b after stop maxDistance
          (if r.isKept then r :: records else records, last) := by
  rw [← collect_eq_all stop maxDistance 1 start]
  rfl

/-- What is read from a region does not skip a byte of it where the written forms of some records
are all that it holds. -/
theorem all_of_encodeAll {ps : List Payload} (hps : ∀ p ∈ ps, p.IsStorable) {start : Nat}
    {stop : Option Int} {maxDistance : Int} (hdistance : 0 ≤ maxDistance)
    (h : b.HasAt start (Payload.encodeAll ps))
    (hregion : regionEnd b stop = (start + (Payload.encodeAll ps).length : Nat)) :
    all b start stop maxDistance =
      ((placed start ps).filter isKept, start + (Payload.encodeAll ps).length) := by
  have hlimit : limit b stop = start + (Payload.encodeAll ps).length := by
    cases stop with
    | none =>
        simp only [regionEnd, Option.getD_none] at hregion
        simp only [limit]
        omega
    | some stop =>
        simp only [regionEnd, Option.getD_some] at hregion
        simp only [limit]
        omega
  have hfuel : ps.length ≤ b.size := by
    have := Payload.length_le_length_encodeAll ps
    have := limit_le_size b stop
    omega
  obtain ⟨distance, rfl⟩ := Int.eq_ofNat_of_zero_le hdistance
  rw [all, hlimit]
  exact collect_of_hasAt hps distance hfuel h

/-- The records of a region are decoded from bytes inside it that no other record is decoded from,
in increasing order, and no complex record with a code that is not kept is among them. They are the
next record, unless it is dropped, and the records behind it. A region that holds the written forms
of some records and nothing else is read to its end and as these records, without those dropped. -/
theorem all_region (b : Buffer) (start : Nat) (stop : Option Int) {maxDistance : Int}
    (hdistance : 0 ≤ maxDistance) :
    let records := (all b start stop maxDistance).1
    (∀ r ∈ records, decode b r.offset = .ok (r, r.stop) ∧
      start ≤ r.offset ∧ (r.stop : Int) ≤ regionEnd b stop ∧
      ∀ code text, r.payload = .complex code text → code ∈ keptCodes) ∧
    records.Pairwise (fun r s => r.stop ≤ s.offset) ∧
    (all b start stop maxDistance =
      match next? b start stop maxDistance with
      | none => ([], start)
      | some (r, after) =>
          let (rest, last) := all b after stop maxDistance
          (if r.isKept then r :: rest else rest, last)) ∧
    ∀ ps : List Payload, (∀ p ∈ ps, p.IsStorable) → b.HasAt start (Payload.encodeAll ps) →
      regionEnd b stop = (start + (Payload.encodeAll ps).length : Nat) →
      all b start stop maxDistance =
        ((placed start ps).filter isKept, start + (Payload.encodeAll ps).length) := by
  obtain ⟨hrow, hkept⟩ := row_collect (b := b) (limit b stop) maxDistance b.size start
  intro records
  refine ⟨fun r hr => ?_, hrow.pairwise, all_eq b start stop maxDistance,
    fun ps hps h hregion => all_of_encodeAll hps hdistance h hregion⟩
  obtain ⟨hlow, hdecode, hhigh⟩ := hrow.inside r hr
  have hstop : 0 < r.stop := by
    have := r.payload.four_le_length_encode
    rw [Record.stop]
    omega
  refine ⟨hdecode, hlow, (le_regionEnd_iff hstop).mpr hhigh, fun code text hpayload => ?_⟩
  exact mem_keptCodes_of_isKept (hkept r hr) hpayload

/-- A film, a tune and a pause: the code of the tune is not kept. -/
def reel : List Payload := [.complex 9 "f", .complex 12 "d", .complex 16 "5"]

/-- The tune is passed over, and the bytes before and behind the region do not matter. -/
theorem all_region_reel :
    (0 : Int) ≤ 4096 ∧ (∀ p ∈ reel, p.IsStorable) ∧
      all ([0x0a] ++ Payload.encodeAll reel ++ [0x0b]).toArray 1 (some 40) 4096 =
        ([⟨.complex 9 "f", 1⟩, ⟨.complex 16 "5", 27⟩], 40) := by
  have hreel : ∀ p ∈ reel, p.IsStorable := by decide
  have hregion := (all_region ([0x0a] ++ Payload.encodeAll reel ++ [0x0b]).toArray 1 (some 40)
    (show (0 : Int) ≤ 4096 by decide)).2.2.2
  refine ⟨by decide, hreel, ?_⟩
  rw [hregion reel hreel (Buffer.hasAt_of_append [0x0a] _ [0x0b]) (by decide)]
  decide

end PointAndClick.Record
