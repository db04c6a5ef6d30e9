import PointAndClick.Proofs.Encoding.Bytes
import PointAndClick.Record.Decode

/-!
# The bytes that stand for records

The written form of a record is its tag word and what the tag asks for. A record is read back from
its written form at any position, and a region that holds the written forms of some records in a
row is read back as these records, without those that are dropped.
-/

set_option autoImplicit false

namespace PointAndClick

open Decoder

namespace Payload

/-! ## Written forms -/

/-- Some points in a row. -/
def encodePoints (points : List Point) : List UInt8 :=
  points.flatMap fun p => Encode.signed p.x ++ Encode.signed p.y

/-- The word that a record starts with. -/
def tagWord (p : Payload) : Nat := (Record.tag ⟨p, 0⟩).toNat

/-- What follows the tag word of a record. -/
def body : Payload → List UInt8
  | .null | .marker => []
  | .wrapper code text | .complex code text => Encode.word code.toNat ++ Encode.text text
  | .simple _ text => Encode.text text
  | .shape _ points => Encode.word points.length ++ encodePoints points

/-- A record. -/
def encode (p : Payload) : List UInt8 := Encode.word p.tagWord ++ p.body

/-- Some records in a row. -/
def encodeAll (ps : List Payload) : List UInt8 := ps.flatMap encode

/-- The record has a written form. -/
def IsStorable : Payload → Prop
  | .null | .marker => True
  | .wrapper code text | .complex code text =>
      0 ≤ code ∧ IsWord code.toNat ∧ PointAndClick.IsStorable text
  | .simple code text => isSimpleTag code ∧ PointAndClick.IsStorable text
  | .shape tag points =>
      isShapeTag tag ∧ points.length ≤ Record.maxPoints ∧
        ∀ p ∈ points, IsSignedWord p.x ∧ IsSignedWord p.y

/-- The record is a command. -/
def isCommand : Payload → Bool
  | .wrapper .. | .complex .. | .simple .. => true
  | .null | .marker | .shape .. => false

/-- The record is a shape. -/
def isShape : Payload → Bool
  | .shape .. => true
  | _ => false

instance : (p : Payload) → Decidable p.IsStorable
  | .null | .marker => inferInstanceAs (Decidable True)
  | .wrapper .. | .complex .. | .simple .. => inferInstanceAs (Decidable (_ ∧ _))
  | .shape .. => inferInstanceAs (Decidable (_ ∧ _ ∧ _))

theorem isCommand_eq (p : Payload) (offset : Nat) :
    p.isCommand = (Record.code? ⟨p, offset⟩).isSome := by
  cases p <;> rfl

theorem encode_ne_nil (p : Payload) : p.encode ≠ [] := List.cons_ne_nil _ _

theorem four_le_length_encode (p : Payload) : 4 ≤ p.encode.length := by
  rw [encode, List.length_append, Encode.length_word]
  omega

@[simp] theorem encodeAll_nil : encodeAll [] = [] := rfl

@[simp] theorem encodeAll_cons (p : Payload) (ps : List Payload) :
    encodeAll (p :: ps) = p.encode ++ encodeAll ps := rfl

theorem length_le_length_encodeAll (ps : List Payload) :
    4 * ps.length ≤ (encodeAll ps).length := by
  induction ps with
  | nil => simp
  | cons p ps ih =>
      have hp := p.four_le_length_encode
      rw [encodeAll_cons, List.length_append, List.length_cons]
      omega

/-- The tag of a record that has a written form fits a word. -/
theorem IsStorable.tagWord {p : Payload} (h : p.IsStorable) :
    IsWord p.tagWord ∧ (p.tagWord : Int) = Record.tag ⟨p, 0⟩ := by
  have hrange : 0 ≤ Record.tag ⟨p, 0⟩ ∧ Record.tag ⟨p, 0⟩ ≤ 110 := by
    cases p with
    | null | marker | wrapper code text | complex code text => simp [Record.tag]
    | simple code text =>
        have htag := isSimpleTag_iff.mp h.1
        simp only [Record.tag]
        omega
    | shape tag points =>
        have htag := isShapeTag_iff.mp h.1
        simp only [Record.tag]
        omega
  simp only [Payload.tagWord, IsWord]
  omega

/-! ## Reading a record -/

theorem readsAt_decodePoints {points : List Point}
    (h : ∀ p ∈ points, IsSignedWord p.x ∧ IsSignedWord p.y) (pos : Nat) :
    ReadsAt (Record.decodePoints points.length) pos (encodePoints points) points := by
  induction points generalizing pos with
  | nil => exact readsAt_pure [] pos
  | cons p points ih =>
      obtain ⟨hx, hy⟩ := h p List.mem_cons_self
      have hrest := fun q hq => h q (List.mem_cons_of_mem p hq)
      show ReadsAt (signed >>= fun x => signed >>= fun y =>
        Record.decodePoints points.length >>= fun ps => pure (⟨x, y⟩ :: ps)) pos
          ((Encode.signed p.x ++ Encode.signed p.y) ++ encodePoints points) (p :: points)
      rw [List.append_assoc]
      exact (readsAt_signed hx pos).bind ((readsAt_signed hy _).bind (ih hrest _).map)

/-- What follows the tag of a record with a code of its own. -/
theorem readsAt_codeAndText {code : Int} {text : String} (hpos : 0 ≤ code)
    (hcode : IsWord code.toNat) (htext : PointAndClick.IsStorable text)
    (payload : Int → String → Payload) (start pos : Nat) :
    ReadsAt (word >>= fun c => Decoder.text (fun _ => .implausibleText start) >>=
      fun t => pure (payload c t)) pos (Encode.word code.toNat ++ Encode.text text)
        (payload code text) := by
  have hread : ReadsAt (word >>= fun c => Decoder.text (fun _ => .implausibleText start) >>=
      fun t => pure (payload c t)) pos (Encode.word code.toNat ++ Encode.text text)
        (payload code.toNat text) :=
    (readsAt_word hcode pos).bind (readsAt_text htext _ _).map
  rwa [Int.toNat_of_nonneg hpos] at hread

theorem readsAt_decodePayload {p : Payload} (h : p.IsStorable) (start pos : Nat) :
    ReadsAt (Record.decodePayload p.tagWord start) pos p.body p := by
  have htag := h.tagWord.2
  cases p with
  | null => exact readsAt_pure _ pos
  | marker => exact readsAt_pure _ pos
  | wrapper code text =>
      obtain ⟨hpos, hcode, htext⟩ := h
      exact readsAt_codeAndText hpos hcode htext .wrapper start pos
  | complex code text =>
      obtain ⟨hpos, hcode, htext⟩ := h
      exact readsAt_codeAndText hpos hcode htext .complex start pos
  | simple code text =>
      obtain ⟨hsimple, htext⟩ := h
      have hword : ((simple code text).tagWord : Int) = code := htag
      rw [Record.decodePayload_of_isSimpleTag (hword ▸ hsimple), hword]
      exact (readsAt_text htext _ _).map
  | shape tag points =>
      obtain ⟨hshape, hcount, hpoints⟩ := h
      have hword : ((shape tag points).tagWord : Int) = tag := htag
      -- the count that is read is that of the points, which are not too many
      have hmax : points.length ≤ 100 := hcount
      rw [Record.decodePayload_of_isShapeTag (hword ▸ hshape), hword]
      refine (readsAt_word (by unfold IsWord; omega) pos).bind ?_
      rw [if_neg (by omega)]
      exact (readsAt_decodePoints hpoints _).map

/-- A record is read back from its written form. -/
theorem readsAt_decode {p : Payload} (h : p.IsStorable) (pos : Nat) :
    ReadsAt Record.decode pos p.encode ⟨p, pos⟩ :=
  (readsAt_position pos).bind_nil
    ((readsAt_word h.tagWord.1 pos).bind (readsAt_decodePayload h pos _).map)

end Payload

/-! ## Regions of a buffer -/

namespace Record

/-- Some records in a row, the first one at a position. -/
def placed : Nat → List Payload → List Record
  | _, [] => []
  | pos, p :: ps => ⟨p, pos⟩ :: placed (pos + p.encode.length) ps

theorem placed_append (pos : Nat) (ps qs : List Payload) :
    placed pos (ps ++ qs) =
      placed pos ps ++ placed (pos + (Payload.encodeAll ps).length) qs := by
  induction ps generalizing pos with
  | nil => rfl
  | cons p ps ih =>
      rw [List.cons_append, placed, ih, placed, Payload.encodeAll_cons, List.length_append,
        ← Nat.add_assoc, List.cons_append]

theorem payload_mem_of_mem_placed {r : Record} {pos : Nat} {ps : List Payload}
    (h : r ∈ placed pos ps) : r.payload ∈ ps := by
  induction ps generalizing pos with
  | nil => cases h
  | cons p ps ih =>
      rcases List.mem_cons.mp h with rfl | hr
      · exact List.mem_cons_self
      · exact List.mem_cons_of_mem p (ih hr)

/-- A record that stands at a position is the next one there. -/
theorem search_of_hasAt {b : Buffer} {p : Payload} {limit pos : Nat} (hp : p.IsStorable)
    (h : b.HasAt pos p.encode) (hlimit : pos + p.encode.length ≤ limit) (tries : Nat) :
    search b limit (tries + 1) pos = some (⟨p, pos⟩, pos + p.encode.length) := by
  have hlen := p.four_le_length_encode
  rw [search, if_neg (by omega), Payload.readsAt_decode hp pos b h]
  exact if_pos hlimit

theorem next?_of_hasAt {b : Buffer} {p : Payload} {pos : Nat} (hp : p.IsStorable)
    (h : b.HasAt pos p.encode) (maxDistance : Nat) :
    next? b pos (some b.size) maxDistance = some (⟨p, pos⟩, pos + p.encode.length) := by
  have hlimit : limit b (some b.size) = b.size := by simp [limit]
  rw [next?, hlimit]
  exact search_of_hasAt hp h (h.le_size p.encode_ne_nil) maxDistance

theorem collect_of_hasAt {b : Buffer} {ps : List Payload} (hps : ∀ p ∈ ps, p.IsStorable)
    (maxDistance : Nat) {fuel pos : Nat} (hfuel : ps.length ≤ fuel)
    (h : b.HasAt pos (Payload.encodeAll ps)) :
    collect b (pos + (Payload.encodeAll ps).length) maxDistance fuel pos =
      ((placed pos ps).filter isKept, pos + (Payload.encodeAll ps).length) := by
  have htries : ((maxDistance : Int) + 1).toNat = maxDistance + 1 := rfl
  induction ps generalizing fuel pos with
  | nil =>
      cases fuel with
      | zero => rfl
      | succ fuel =>
          -- no word is left before the end of the region
          have hnone : search b pos (maxDistance + 1) pos = none := by
            rw [search, if_pos (by omega)]
          simp only [Payload.encodeAll_nil, List.length_nil, Nat.add_zero, collect, htries, hnone]
          rfl
  | cons p ps ih =>
      cases fuel with
      | zero => simp at hfuel
      | succ fuel =>
          obtain ⟨hp, hrest⟩ := Buffer.hasAt_append.mp h
          -- the record is the next one of the region, and the rest of the region follows it
          have hlimit : pos + p.encode.length ≤ pos + (Payload.encodeAll (p :: ps)).length := by
            simp
          have hsearch := search_of_hasAt (hps p List.mem_cons_self) hp hlimit maxDistance
          have ih := ih (fun q hq => hps q (List.mem_cons_of_mem p hq))
            (Nat.le_of_succ_le_succ hfuel) hrest
          rw [Nat.add_assoc, ← List.length_append, ← Payload.encodeAll_cons] at ih
          simp only [collect, htries, hsearch, ih, placed, List.filter_cons]

/-- A region that holds some records is read back as these records, without those dropped. -/
theorem all_of_hasAt {b : Buffer} {ps : List Payload} (hps : ∀ p ∈ ps, p.IsStorable)
    (maxDistance : Nat) {pos stop : Nat} (hstop : stop = pos + (Payload.encodeAll ps).length)
    (hsize : stop ≤ b.size) (h : b.HasAt pos (Payload.encodeAll ps)) :
    all b pos (some stop) maxDistance = ((placed pos ps).filter isKept, stop) := by
  have hlimit : limit b (some stop) = stop := by
    simp only [limit, Int.toNat_natCast]
    omega
  have hlen := Payload.length_le_length_encodeAll ps
  rw [all, hlimit, hstop]
  exact collect_of_hasAt hps maxDistance (by omega) h

end Record

end PointAndClick
