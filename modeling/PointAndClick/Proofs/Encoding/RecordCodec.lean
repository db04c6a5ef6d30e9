import PointAndClick.Cursor
import PointAndClick.Proofs.Encoding.Provenance
import PointAndClick.Proofs.Encoding.Record

/-!
# The record codec

Records that have a written form and the bytes that a decoder takes for them determine each other.
`Record.decode_eq_ok_iff` says so for any buffer: a record is decoded at a position just where its
written form stands.

A decoder that fails gives no position. How a cursor fares that moves on with each part of a record
is said by `Record.read`, which puts it back where it was if a part fails; it comes to the same as
`Record.decode` (`Record.read_apply`).
-/

set_option autoImplicit false

namespace PointAndClick

open Decoder

/-! ## Written forms of what was decoded -/

namespace Record

variable {b : Buffer} {pos stop : Nat}

theorem decodePoints_eq_ok {count : Nat} {points : List Point}
    (h : decodePoints count b pos = .ok (points, stop)) :
    points.length = count ∧ (∀ p ∈ points, IsSignedWord p.x ∧ IsSignedWord p.y) ∧
      b.HasBetween pos stop (Payload.encodePoints points) := by
  induction count generalizing pos points with
  | zero =>
      obtain ⟨rfl, rfl⟩ := Prod.mk.inj (Except.ok.inj h)
      exact ⟨rfl, by simp, b.hasBetween_nil pos⟩
  | succ count ih =>
      obtain ⟨x, pos₁, hx, h⟩ := bind_eq_ok.mp h
      obtain ⟨y, pos₂, hy, h⟩ := bind_eq_ok.mp h
      obtain ⟨rest, pos₃, hrest, h⟩ := bind_eq_ok.mp h
      obtain ⟨rfl, rfl⟩ := Prod.mk.inj (Except.ok.inj h)
      obtain ⟨hxword, hxat⟩ := signed_eq_ok_iff.mp hx
      obtain ⟨hyword, hyat⟩ := signed_eq_ok_iff.mp hy
      obtain ⟨rfl, hwords, hat⟩ := ih hrest
      refine ⟨rfl, List.forall_mem_cons.mpr ⟨⟨hxword, hyword⟩, hwords⟩, ?_⟩
      exact (hxat.append hyat).append hat

/-- The payload has a written form, which starts with a tag, and what follows the tag stands between
two positions. -/
structure Follows (b : Buffer) (pos stop tag : Nat) (p : Payload) : Prop where
  storable : p.IsStorable
  tagWord : p.tagWord = tag
  body : b.HasBetween pos stop p.body

/-- What follows the tag of a record with a code of its own. -/
theorem follows_codeAndText (payload : Int → String → Payload) {start tag : Nat} {p : Payload}
    (hpayload : ∀ (code : Nat) (text : String), IsWord code → PointAndClick.IsStorable text →
      (payload code text).IsStorable ∧ (payload code text).tagWord = tag ∧
        (payload code text).body = Encode.word code ++ Encode.text text)
    (h : (word >>= fun code => Decoder.text (fun _ => .implausibleText start) >>= fun text =>
      pure (payload code text)) b pos = .ok (p, stop)) : Follows b pos stop tag p := by
  obtain ⟨code, pos₁, hcode, h⟩ := bind_eq_ok.mp h
  obtain ⟨text, pos₂, htext, h⟩ := bind_eq_ok.mp h
  obtain ⟨rfl, rfl⟩ := Prod.mk.inj (Except.ok.inj h)
  obtain ⟨hword, hcodeAt⟩ := word_eq_ok_iff.mp hcode
  obtain ⟨hfits, htextAt⟩ := text_eq_ok_iff.mp htext
  obtain ⟨hstorable, htag, hbody⟩ := hpayload code text hword hfits
  exact ⟨hstorable, htag, hbody ▸ hcodeAt.append htextAt⟩

theorem follows_of_decodePayload {tag start : Nat} {p : Payload}
    (h : decodePayload tag start b pos = .ok (p, stop)) : Follows b pos stop tag p := by
  unfold decodePayload at h
  split at h
  · rename_i htag
    obtain ⟨rfl, rfl⟩ := Prod.mk.inj (Except.ok.inj h)
    exact ⟨trivial, htag.symm, b.hasBetween_nil pos⟩
  split at h
  · rename_i htag
    obtain ⟨rfl, rfl⟩ := Prod.mk.inj (Except.ok.inj h)
    exact ⟨trivial, htag.symm, b.hasBetween_nil pos⟩
  split at h
  · rename_i htag
    refine follows_codeAndText .wrapper (fun code text hword hfits => ⟨?_, htag.symm, rfl⟩) h
    exact ⟨Int.natCast_nonneg code, hword, hfits⟩
  split at h
  · rename_i htag
    refine follows_codeAndText .complex (fun code text hword hfits => ⟨?_, htag.symm, rfl⟩) h
    exact ⟨Int.natCast_nonneg code, hword, hfits⟩
  split at h
  · rename_i hsimple
    obtain ⟨text, pos₁, htext, h⟩ := bind_eq_ok.mp h
    obtain ⟨rfl, rfl⟩ := Prod.mk.inj (Except.ok.inj h)
    obtain ⟨hfits, hat⟩ := text_eq_ok_iff.mp htext
    exact ⟨⟨hsimple, hfits⟩, Int.toNat_natCast tag, hat⟩
  split at h
  · rename_i hshape
    obtain ⟨count, pos₁, hcount, h⟩ := bind_eq_ok.mp h
    split at h
    · nomatch h
    · rename_i hmost
      obtain ⟨points, pos₂, hpoints, h⟩ := bind_eq_ok.mp h
      obtain ⟨rfl, rfl⟩ := Prod.mk.inj (Except.ok.inj h)
      obtain ⟨-, hcountAt⟩ := word_eq_ok_iff.mp hcount
      obtain ⟨rfl, hwords, hat⟩ := decodePoints_eq_ok hpoints
      exact ⟨⟨hshape, Nat.not_lt.mp hmost, hwords⟩, Int.toNat_natCast tag, hcountAt.append hat⟩
  · nomatch h

/-- A record is decoded just where its written form stands. -/
theorem decode_eq_ok_iff {r : Record} :
    decode b pos = .ok (r, stop) ↔
      r.payload.IsStorable ∧ r.offset = pos ∧ b.HasBetween pos stop r.payload.encode := by
  constructor
  · intro h
    obtain ⟨start, pos₁, hstart, h⟩ := bind_eq_ok.mp h
    obtain ⟨rfl, rfl⟩ := Prod.mk.inj (Except.ok.inj hstart)
    obtain ⟨tag, pos₂, htag, h⟩ := bind_eq_ok.mp h
    obtain ⟨p, pos₃, hp, h⟩ := bind_eq_ok.mp h
    obtain ⟨rfl, rfl⟩ := Prod.mk.inj (Except.ok.inj h)
    obtain ⟨-, htagAt⟩ := word_eq_ok_iff.mp htag
    obtain ⟨hstorable, rfl, hat⟩ := follows_of_decodePayload hp
    exact ⟨hstorable, rfl, htagAt.append hat⟩
  · obtain ⟨p, offset⟩ := r
    rintro ⟨hp, rfl, hat, rfl⟩
    exact Payload.readsAt_decode hp offset b hat

end Record

/-! ## Cursors that move on -/

/-- What a decoder that was run at a cursor gave, and the cursor after it, which stays where it is
if the decoder failed. -/
def Cursor.settle {α : Type} (c : Cursor) :
    Except DecodeError (α × Cursor) → Except DecodeError α × Cursor
  | .ok (a, after) => (.ok a, after)
  | .error e => (.error e, c)

/-- Something done with a cursor, which it moves also where it fails. -/
abbrev Reading (α : Type) : Type := ExceptT DecodeError (StateM Cursor) α

theorem Cursor.read_bind {α β : Type} (c : Cursor) (d : Decoder α) (later : α → Decoder β) :
    c.read (d >>= later) = (c.read d).bind fun r => r.2.read (later r.1) := by
  simp only [Cursor.read, bind]
  cases d c.buffer c.pos <;> rfl

namespace Reading

variable {α β : Type}

/-- Reads a word or a text. What fails here does not move the cursor. -/
def part (d : Decoder α) : Reading α := fun c => c.settle (c.read d)

/-- Puts the cursor back where it was if something fails. -/
def restoring (read : Reading α) : Reading α := do
  let start ← get
  try read
  catch e =>
    set start
    throw e

/-- A reading and a decoder give the same. Where they fail, the cursor may be anywhere. -/
def Agrees (read : Reading α) (d : Decoder α) : Prop :=
  ∀ c : Cursor, match c.read d with
    | .ok (a, after) => read c = (.ok a, after)
    | .error e => ∃ after, read c = (.error e, after)

theorem bind_apply (read : Reading α) (next : α → Reading β) (c : Cursor) :
    (read >>= next) c = match read c with
      | (.ok a, after) => next a after
      | (.error e, after) => (.error e, after) := by
  show (ExceptT.bindCont next (read c).1) (read c).2 = _
  rcases read c with ⟨_ | a, after⟩ <;> rfl

theorem tryCatch_apply (read : Reading α) (handle : DecodeError → Reading α) (c : Cursor) :
    (tryCatch read handle : Reading α) c = match read c with
      | (.ok a, after) => (.ok a, after)
      | (.error e, after) => handle e after := by
  show (ExceptT.tryCatch read handle : Reading α) c = _
  simp only [ExceptT.tryCatch, ExceptT.mk, bind, StateT.bind]
  rcases read c with ⟨_ | a, after⟩ <;> rfl

theorem restoring_apply (read : Reading α) (c : Cursor) :
    restoring read c = match read c with
      | (.ok a, after) => (.ok a, after)
      | (.error e, _) => (.error e, c) := by
  unfold restoring
  rw [bind_apply]
  show (tryCatch read _ : Reading α) c = _
  rw [tryCatch_apply]
  rcases read c with ⟨_ | a, after⟩ <;> rfl

/-! ### Parts of a decoder -/

theorem agrees_pure (a : α) : Agrees (pure a) (pure a : Decoder α) := fun _ => rfl

theorem agrees_throw (e : DecodeError) : Agrees (throw e) (fail e : Decoder α) :=
  fun c => ⟨c, rfl⟩

theorem agrees_part (d : Decoder α) : Agrees (part d) d := by
  intro c
  unfold part
  cases c.read d with
  | error e => exact ⟨c, rfl⟩
  | ok r => rfl

theorem Agrees.bind {read : Reading α} {d : Decoder α} {next : α → Reading β}
    {later : α → Decoder β} (h : Agrees read d) (hnext : ∀ a, Agrees (next a) (later a)) :
    Agrees (read >>= next) (d >>= later) := by
  intro c
  have hread := h c
  rw [bind_apply, Cursor.read_bind]
  cases hd : c.read d with
  | error e =>
      rw [hd] at hread
      obtain ⟨after, hread⟩ := hread
      rw [hread]
      exact ⟨after, rfl⟩
  | ok r =>
      rw [hd] at hread
      rw [hread]
      exact hnext r.1 r.2

theorem Agrees.ite {read read' : Reading α} {d d' : Decoder α} (p : Prop) [Decidable p]
    (h : Agrees read d) (h' : Agrees read' d') :
    Agrees (if p then read else read') (if p then d else d') := by
  split
  · exact h
  · exact h'

/-- With the cursor put back, nothing is left to differ. -/
theorem Agrees.restoring_apply {read : Reading α} {d : Decoder α} (h : Agrees read d)
    (c : Cursor) : restoring read c = c.settle (c.read d) := by
  have hread := h c
  rw [Reading.restoring_apply]
  cases hd : c.read d with
  | error e =>
      rw [hd] at hread
      obtain ⟨after, hread⟩ := hread
      rw [hread]
      rfl
  | ok r =>
      rw [hd] at hread
      rw [hread]
      rfl

end Reading

namespace Record

open Reading

/-- Reads some points in a row. -/
def readPoints : Nat → Reading (List Point)
  | 0 => pure []
  | count + 1 => do
    let x ← part Decoder.signed
    let y ← part Decoder.signed
    return ⟨x, y⟩ :: (← readPoints count)

/-- Reads what follows the tag of a record that starts at `start`. -/
def readPayload (tag start : Nat) : Reading Payload :=
  if tag = 0 then return .null
  else if tag = 2 then return .marker
  else if tag = 1 then do
    let code ← part Decoder.word
    return .wrapper code (← part (Decoder.text fun _ => .implausibleText start))
  else if tag = 3 then do
    let code ← part Decoder.word
    return .complex code (← part (Decoder.text fun _ => .implausibleText start))
  else if isSimpleTag tag then do
    return .simple tag (← part (Decoder.text fun _ => .implausibleText start))
  else if isShapeTag tag then do
    let count ← part Decoder.word
    if maxPoints < count then throw (.implausiblePoints count start)
    else return .shape tag (← readPoints count)
  else throw (.unknownTag tag start)

/-- Reads a record part by part, and puts the cursor back if a part fails. -/
def read : Reading Record := do
  let start ← get
  restoring do
    let tag ← part Decoder.word
    return ⟨← readPayload tag start.pos, start.pos⟩

theorem agrees_readPoints (count : Nat) : Agrees (readPoints count) (decodePoints count) := by
  induction count with
  | zero => exact agrees_pure []
  | succ count ih =>
      exact (agrees_part _).bind fun _ => (agrees_part _).bind fun _ => ih.bind fun _ =>
        agrees_pure _

theorem agrees_readPayload (tag start : Nat) :
    Agrees (readPayload tag start) (decodePayload tag start) := by
  have htext (payload : String → Payload) :
      Agrees (part (Decoder.text fun _ => .implausibleText start) >>= fun text =>
        pure (payload text)) (Decoder.text (fun _ => .implausibleText start) >>= fun text =>
          pure (payload text)) := (agrees_part _).bind fun _ => agrees_pure _
  refine .ite _ (agrees_pure _) (.ite _ (agrees_pure _) (.ite _ ?_ (.ite _ ?_ (.ite _ ?_
    (.ite _ ?_ (agrees_throw _))))))
  · exact (agrees_part _).bind fun code => htext (.wrapper code)
  · exact (agrees_part _).bind fun code => htext (.complex code)
  · exact htext (.simple tag)
  · refine (agrees_part _).bind fun count => .ite _ (agrees_throw _) ?_
    exact (agrees_readPoints count).bind fun _ => agrees_pure _

/-- Reading part by part, with the cursor put back after a failure, comes to decoding. -/
theorem read_apply (c : Cursor) : read c = c.settle (c.read decode) := by
  have hparts : Agrees
      (part Decoder.word >>= fun tag => readPayload tag c.pos >>= fun p => pure ⟨p, c.pos⟩)
      (Decoder.word >>= fun tag => decodePayload tag c.pos >>= fun p =>
        pure (⟨p, c.pos⟩ : Record)) :=
    (agrees_part _).bind fun tag => (agrees_readPayload tag c.pos).bind fun _ => agrees_pure _
  -- the position at which the record starts is that of the cursor
  have hdecode : c.read decode = c.read (Decoder.word >>= fun tag =>
      decodePayload tag c.pos >>= fun p => pure ⟨p, c.pos⟩) := rfl
  rw [hdecode, ← hparts.restoring_apply c]
  rfl

/-- A record that has a written form is decoded from it, whatever stands before and after it; a
record that is decoded is one that has a written form, and this is what stands between the position
where it was decoded and the one behind it; and where no record is decoded, a cursor that moved on
with each part of it is back where it was. -/
theorem decode_codec :
    (∀ (p : Payload) (before after : List UInt8), p.IsStorable →
      decode (before ++ p.encode ++ after).toArray before.length =
        .ok (⟨p, before.length⟩, before.length + p.encode.length)) ∧
    (∀ (b : Buffer) (pos stop : Nat) (r : Record), decode b pos = .ok (r, stop) →
      r.payload.IsStorable ∧ r.offset = pos ∧ stop = pos + r.payload.encode.length ∧
        b.slice pos (stop - pos) = r.payload.encode) ∧
    ∀ c : Cursor,
      (∃ r after, c.read decode = .ok (r, after) ∧ read c = (.ok r, after)) ∨
        ∃ e, c.read decode = .error e ∧ read c = (.error e, c) := by
  refine ⟨fun p before after hp => ?_, fun b pos stop r h => ?_, fun c => ?_⟩
  · exact Payload.readsAt_decode hp _ _ (Buffer.hasAt_of_append before p.encode after)
  · obtain ⟨hp, hoffset, hat, hstop⟩ := decode_eq_ok_iff.mp h
    refine ⟨hp, hoffset, hstop, ?_⟩
    rw [hstop, Nat.add_sub_cancel_left]
    exact hat
  · have hread := read_apply c
    cases hdecode : c.read decode with
    | error e =>
        rw [hdecode] at hread
        exact .inr ⟨e, rfl, hread⟩
    | ok r =>
        rw [hdecode] at hread
        exact .inl ⟨r.1, r.2, rfl, hread⟩

/-- The count of a shape goes past the points that are there: the cursor is back at the tag. -/
example : read ⟨#[100, 0, 0, 0, 1, 0, 0, 0, 7, 0, 0, 0], 0⟩ =
    (.error (.shortRead 4 0 12), ⟨#[100, 0, 0, 0, 1, 0, 0, 0, 7, 0, 0, 0], 0⟩) := rfl

end Record

end PointAndClick
