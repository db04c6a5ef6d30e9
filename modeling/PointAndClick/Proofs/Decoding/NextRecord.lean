import Mathlib.Order.Bounds.Defs
import PointAndClick.Proofs.Decoding.Steps
import PointAndClick.Proofs.Encoding.RecordCodec

/-!
# The next record of a region

Where no record decodes, or one that runs over the end of its region, the next byte is tried. The
record that is found in this way is the nearest one: `Record.nearest_of_search` says so for a search
of some positions in a row, and `Record.isLeast_of_next?` for regions and distances of all kinds.

A search moves its cursor to each position that it tries. `Record.readNext?` says how a cursor fares
that is moved like this; what it comes to is what `Record.next?` gives, and where nothing is found
the cursor is back where it was.
-/

set_option autoImplicit false

namespace PointAndClick

open Decoder

/-! ## Failures behind which a search goes on -/

/-- The failure says that the bytes are no record, or too few for one. A search goes on behind
it. -/
def DecodeError.isResumable (e : DecodeError) : Bool :=
  match e.category with
  | .unrecognizedTag | .implausibleLength | .outOfBounds => true
  | .other => false

namespace Decoder

variable {α β : Type}

/-- A search goes on behind every failure of the decoder. -/
def FailsResumably (d : Decoder α) : Prop :=
  ∀ b pos e, d b pos = .error e → e.isResumable = true

theorem failsResumably_pure (a : α) : FailsResumably (pure a) := by
  rintro b pos e ⟨⟩

theorem failsResumably_fail {e : DecodeError} (h : e.isResumable = true) :
    FailsResumably (fail e : Decoder α) := by
  rintro b pos _ ⟨⟩
  exact h

theorem FailsResumably.bind {d : Decoder α} {next : α → Decoder β} (hd : FailsResumably d)
    (hnext : ∀ a, FailsResumably (next a)) : FailsResumably (d >>= next) := by
  intro b pos e h
  rcases bind_eq_error.mp h with hfirst | ⟨a, middle, -, hsecond⟩
  · exact hd b pos e hfirst
  · exact hnext a b middle e hsecond

theorem FailsOutOfBounds.failsResumably {d : Decoder α} (h : FailsOutOfBounds d) :
    FailsResumably d := by
  intro b pos e he
  rw [DecodeError.isResumable, h b pos e he]

theorem failsResumably_fixed (width : Nat) (value : Buffer → Nat → α) :
    FailsResumably (fixed width value) := (failsOutOfBounds_fixed width value).failsResumably

theorem failsResumably_text {absent : Nat → DecodeError}
    (h : ∀ pos, (absent pos).isResumable = true) : FailsResumably (text absent) := by
  intro b pos e he
  unfold text at he
  split at he
  · cases he
  · cases he
    exact h pos

end Decoder

namespace Record

theorem failsResumably_decodePoints (count : Nat) : FailsResumably (decodePoints count) := by
  induction count with
  | zero => exact failsResumably_pure []
  | succ count ih =>
      exact (failsResumably_fixed 4 _).bind fun x => (failsResumably_fixed 4 _).bind fun y =>
        ih.bind fun points => failsResumably_pure _

theorem failsResumably_decodePayload (tag start : Nat) :
    FailsResumably (decodePayload tag start) := by
  have htext (payload : String → Payload) :
      FailsResumably (Decoder.text (fun _ => .implausibleText start) >>= fun text =>
        pure (payload text)) :=
    (failsResumably_text fun _ => rfl).bind fun text => failsResumably_pure _
  unfold decodePayload
  split
  · exact failsResumably_pure _
  split
  · exact failsResumably_pure _
  split
  · exact (failsResumably_fixed 4 _).bind fun code => htext _
  split
  · exact (failsResumably_fixed 4 _).bind fun code => htext _
  split
  · exact htext _
  split
  · refine (failsResumably_fixed 4 _).bind fun count => ?_
    split
    · exact failsResumably_fail rfl
    · exact (failsResumably_decodePoints count).bind fun points => failsResumably_pure _
  · exact failsResumably_fail rfl

/-- There is no way in which a record fails to decode that would end a search. -/
theorem failsResumably_decode : FailsResumably decode := by
  have hposition : FailsResumably Decoder.position := by
    rintro b pos e ⟨⟩
  exact hposition.bind fun start => (failsResumably_fixed 4 _).bind fun tag =>
    (failsResumably_decodePayload tag start).bind fun payload => failsResumably_pure _

/-! ## The nearest record -/

variable {b : Buffer}

/-- Where a region ends that is to end at `stop`: there, or where the buffer ends. -/
def regionEnd (b : Buffer) (stop : Option Int) : Int :=
  min (stop.getD b.size) b.size

/-- What starts with at least one byte ends inside a region just where it ends by the limit of
those who read the region. -/
theorem le_regionEnd_iff {stop : Option Int} {n : Nat} (hn : 0 < n) :
    (n : Int) ≤ regionEnd b stop ↔ n ≤ limit b stop := by
  cases stop with
  | none => simp [regionEnd, limit]
  | some stop =>
      simp only [regionEnd, limit, Option.getD_some]
      omega

/-- What a search gives: a record that decodes at one of the positions and ends by the limit, while
at the positions before it nothing decodes that ends by the limit. -/
theorem nearest_of_search {limit tries pos after : Nat} {r : Record}
    (h : search b limit tries pos = some (r, after)) :
    pos ≤ r.offset ∧ r.offset < pos + tries ∧ r.offset + 4 ≤ limit ∧
      decode b r.offset = .ok (r, after) ∧ after ≤ limit ∧
      ∀ q, pos ≤ q → q < r.offset → ∀ s stop, decode b q = .ok (s, stop) → limit < stop := by
  induction tries generalizing pos with
  | zero => cases h
  | succ tries ih =>
      rw [search] at h
      by_cases hroom : limit < pos + 4
      · rw [if_pos hroom] at h
        cases h
      · rw [if_neg hroom] at h
        -- once the position is passed over, what is found further on is the nearest
        have hlater (hpos : ∀ s stop, decode b pos = .ok (s, stop) → limit < stop)
            (h : search b limit tries (pos + 1) = some (r, after)) :
            pos ≤ r.offset ∧ r.offset < pos + (tries + 1) ∧ r.offset + 4 ≤ limit ∧
              decode b r.offset = .ok (r, after) ∧ after ≤ limit ∧
              ∀ q, pos ≤ q → q < r.offset →
                ∀ s stop, decode b q = .ok (s, stop) → limit < stop := by
          obtain ⟨hlow, hhigh, htag, hdecode, hend, hbefore⟩ := ih h
          refine ⟨by omega, by omega, htag, hdecode, hend, fun q hq hlt => ?_⟩
          rcases Nat.eq_or_lt_of_le hq with rfl | hq
          · exact hpos
          · exact hbefore q hq hlt
        cases hdecode : decode b pos with
        | error e =>
            simp only [hdecode] at h
            exact hlater (fun s stop hs => by rw [hdecode] at hs; cases hs) h
        | ok found =>
            obtain ⟨s, stop⟩ := found
            simp only [hdecode] at h
            by_cases hstop : stop ≤ limit
            · rw [if_pos hstop] at h
              cases h
              have hoffset := (decode_eq_ok hdecode).1
              refine ⟨by omega, by omega, by omega, hoffset ▸ hdecode, hstop, ?_⟩
              intro q hq hlt
              omega
            · rw [if_neg hstop] at h
              refine hlater (fun s' stop' hs => ?_) h
              rw [hdecode] at hs
              cases hs
              omega

/-- Where a search gives nothing, nothing decodes at its positions that ends by the limit. -/
theorem lt_of_search_eq_none {limit tries pos : Nat} (h : search b limit tries pos = none) :
    ∀ q, pos ≤ q → q < pos + tries → ∀ s stop, decode b q = .ok (s, stop) → limit < stop := by
  induction tries generalizing pos with
  | zero =>
      intro q hq hlt
      omega
  | succ tries ih =>
      intro q hq hlt s stop hs
      rw [search] at h
      by_cases hroom : limit < pos + 4
      -- a record takes the word of its tag at least
      · have htakes := (takes_decode b q s stop hs).1
        omega
      · rw [if_neg hroom] at h
        rcases Nat.eq_or_lt_of_le hq with rfl | hq
        · simp only [hs] at h
          refine Nat.lt_of_not_le fun hstop => ?_
          rw [if_pos hstop] at h
          cases h
        · have hrest : search b limit tries (pos + 1) = none := by
            split at h
            · split at h
              · cases h
              · exact h
            · exact h
          exact ih hrest q hq (by omega) s stop hs

/-- A search from a start may stop at a position: it is near enough, with room for a tag before the
end of the region, and a record decodes there that ends inside the region. -/
structure IsInReach (b : Buffer) (start : Nat) (stop : Option Int) (maxDistance : Int) (q : Nat) :
    Prop where
  start_le : start ≤ q
  near : (q : Int) ≤ start + maxDistance
  room : (q : Int) + 4 ≤ regionEnd b stop
  decodes : ∃ r after, decode b q = .ok (r, after) ∧ (after : Int) ≤ regionEnd b stop

/-- The next record is the one at the least position at which a search may stop. -/
theorem isLeast_of_next? {start after : Nat} {stop : Option Int} {maxDistance : Int} {r : Record}
    (h : next? b start stop maxDistance = some (r, after)) :
    IsLeast {q | IsInReach b start stop maxDistance q} r.offset ∧
      decode b r.offset = .ok (r, after) := by
  obtain ⟨hlow, hhigh, htag, hdecode, hend, hbefore⟩ := nearest_of_search h
  have htakes := (takes_decode b r.offset r after hdecode).1
  have hroom : ((r.offset + 4 : Nat) : Int) ≤ regionEnd b stop :=
    (le_regionEnd_iff (by omega)).mpr htag
  have hregion : (after : Int) ≤ regionEnd b stop := (le_regionEnd_iff (by omega)).mpr hend
  refine ⟨⟨⟨hlow, by omega, by omega, r, after, hdecode, hregion⟩, ?_⟩, hdecode⟩
  rintro q ⟨hq, -, -, s, last, hs, hlast⟩
  refine Nat.le_of_not_lt fun hlt => ?_
  have hover := hbefore q hq hlt s last hs
  have hpos : 0 < last := by
    have := (takes_decode b q s last hs).1
    omega
  have := (le_regionEnd_iff hpos).mp hlast
  omega

theorem not_isInReach_of_next? {start : Nat} {stop : Option Int} {maxDistance : Int}
    (h : next? b start stop maxDistance = none) (q : Nat) :
    ¬IsInReach b start stop maxDistance q := by
  rintro ⟨hq, hnear, -, s, last, hs, hlast⟩
  have hover := lt_of_search_eq_none h q hq (by omega) s last hs
  have hpos : 0 < last := by
    have := (takes_decode b q s last hs).1
    omega
  have := (le_regionEnd_iff hpos).mp hlast
  omega

end Record

/-! ## A cursor that is moved to each position -/

namespace Reading

variable {α : Type}

/-- Moves the cursor to a position. -/
def seek (target : Nat) : Reading Unit := fun c =>
  c.settle ((c.seek target).map fun after => ((), after))

/-- Reads, and gives nothing where that fails in a way behind which a search goes on. -/
def attempt (read : Reading α) : Reading (Option α) :=
  tryCatch (read >>= fun a => pure (some a)) fun e =>
    if e.isResumable then pure none else throw e

theorem seek_apply {c : Cursor} {target : Nat} (h : target ≤ c.buffer.size) :
    seek target c = (.ok (), { c with pos := target }) := by
  have hbounds : ¬((target : Int) < 0 ∨ (c.buffer.size : Int) < target) := by omega
  simp only [seek, Cursor.seek, if_neg hbounds]
  rfl

theorem attempt_apply (read : Reading α) (c : Cursor) :
    attempt read c = match read c with
      | (.ok a, after) => (.ok (some a), after)
      | (.error e, after) => (if e.isResumable then .ok none else .error e, after) := by
  unfold attempt
  rw [tryCatch_apply, bind_apply]
  rcases read c with ⟨e | a, after⟩
  · simp only
    split <;> rfl
  · rfl

end Reading

namespace Record

open Reading

/-- Reads the first record that ends by the limit, from one of `tries` positions from `pos` on. If
there is none, the cursor goes back to the start. -/
def readNearest (limit : Int) (start : Nat) : Nat → Nat → Reading (Option Record)
  | 0, _ => do
    seek start
    return none
  | tries + 1, pos =>
    if limit < pos + 4 then do
      seek start
      return none
    else do
      seek pos
      match ← attempt read with
      | none => readNearest limit start tries (pos + 1)
      | some r =>
        if limit < (← get).pos then readNearest limit start tries (pos + 1)
        else return some r

/-- Reads the next record before `stop`, at most `maxDistance` bytes further on. -/
def readNext? (stop : Option Int) (maxDistance : Int) : Reading (Option Record) := do
  let start ← get
  readNearest (regionEnd start.buffer stop) start.pos (maxDistance + 1).toNat start.pos

/-- What is tried at a position. -/
theorem attempt_read {b : Buffer} {q : Nat} :
    attempt read ⟨b, q⟩ = match decode b q with
      | .ok (r, after) => (.ok (some r), ⟨b, after⟩)
      | .error _ => (.ok none, ⟨b, q⟩) := by
  rw [attempt_apply, read_apply]
  cases hdecode : decode b q with
  | error e =>
      have hresumable := failsResumably_decode b q e hdecode
      simp only [Cursor.read, hdecode, Cursor.settle, hresumable, if_true]
  | ok found => simp only [Cursor.read, hdecode, Cursor.settle]

/-- Moving the cursor to each position comes to a search, and nothing found puts the cursor back. -/
theorem readNearest_apply {b : Buffer} {stop : Option Int} {start : Nat} (hstart : start ≤ b.size)
    (tries pos last : Nat) :
    readNearest (regionEnd b stop) start tries pos ⟨b, last⟩ =
      match search b (limit b stop) tries pos with
      | some (r, after) => (.ok (some r), ⟨b, after⟩)
      | none => (.ok none, ⟨b, start⟩) := by
  have hback (last : Nat) :
      (seek start >>= fun _ => (pure none : Reading (Option Record))) ⟨b, last⟩ =
        (.ok none, ⟨b, start⟩) := by
    rw [bind_apply, seek_apply hstart]
    rfl
  induction tries generalizing pos last with
  | zero => exact hback last
  | succ tries ih =>
      have hroom : regionEnd b stop < pos + 4 ↔ limit b stop < pos + 4 := by
        have hiff : ((pos + 4 : Nat) : Int) ≤ regionEnd b stop ↔ pos + 4 ≤ limit b stop :=
          le_regionEnd_iff (by omega)
        omega
      rw [readNearest, search]
      by_cases hlimit : limit b stop < pos + 4
      · rw [if_pos hlimit, if_pos (hroom.mpr hlimit)]
        exact hback last
      · have hsize := limit_le_size b stop
        have hpos : pos ≤ b.size := by omega
        have hseek : seek pos ⟨b, last⟩ = (.ok (), ⟨b, pos⟩) := seek_apply hpos
        rw [if_neg hlimit, if_neg (fun h => hlimit (hroom.mp h)), bind_apply, hseek]
        show (attempt read >>= _) (⟨b, pos⟩ : Cursor) = _
        rw [bind_apply, attempt_read]
        cases hdecode : decode b pos with
        | error e => exact ih (pos + 1) pos
        | ok found =>
            obtain ⟨r, after⟩ := found
            have htakes := (takes_decode b pos r after hdecode).1
            have hregion : (after : Int) ≤ regionEnd b stop ↔ after ≤ limit b stop :=
              le_regionEnd_iff (by omega)
            show (if regionEnd b stop < (after : Int) then
              readNearest (regionEnd b stop) start tries (pos + 1) else pure (some r)) ⟨b, after⟩ = _
            by_cases hend : after ≤ limit b stop
            · have hinside : ¬regionEnd b stop < (after : Int) := by omega
              rw [if_neg hinside]
              simp only [if_pos hend]
              rfl
            · have hover : regionEnd b stop < (after : Int) := by omega
              rw [if_pos hover]
              simp only [if_neg hend]
              exact ih (pos + 1) after

/-- A cursor takes up a record just where there is one in reach. This is the one at the least such
position, and the cursor is left behind it; where none is in reach, nothing is given and the cursor
is back at its start. -/
theorem readNext?_nearest {c : Cursor} (hc : c.pos ≤ c.buffer.size) (stop : Option Int)
    (maxDistance : Int) :
    ((next? c.buffer c.pos stop maxDistance).isSome = true ↔
      ∃ q, IsInReach c.buffer c.pos stop maxDistance q) ∧
    match next? c.buffer c.pos stop maxDistance with
    | some (r, after) =>
        IsLeast {q | IsInReach c.buffer c.pos stop maxDistance q} r.offset ∧
          decode c.buffer r.offset = .ok (r, after) ∧
          readNext? stop maxDistance c = (.ok (some r), { c with pos := after })
    | none => readNext? stop maxDistance c = (.ok none, c) := by
  obtain ⟨b, start⟩ := c
  have hread : readNext? stop maxDistance ⟨b, start⟩ =
      match next? b start stop maxDistance with
      | some (r, after) => (.ok (some r), ⟨b, after⟩)
      | none => (.ok none, ⟨b, start⟩) := readNearest_apply hc _ start start
  cases hnext : next? b start stop maxDistance with
  | none =>
      rw [hnext] at hread
      refine ⟨⟨fun h => (nomatch h), fun ⟨q, hq⟩ => ?_⟩, hread⟩
      exact absurd hq (not_isInReach_of_next? hnext q)
  | some found =>
      rw [hnext] at hread
      obtain ⟨hleast, hdecode⟩ := isLeast_of_next? hnext
      exact ⟨⟨fun _ => ⟨_, hleast.1⟩, fun _ => rfl⟩, hleast, hdecode, hread⟩

/-- Six bytes that are no record, and the record of a sound. -/
def garbled : Buffer :=
  #[0xff, 0xff, 0xff, 0xff, 0xee, 0x13, 11, 0, 0, 0, 1, 0, 0, 0, 0x78]

/-- The bytes before the sound are passed over, one after another. -/
theorem readNext?_nearest_garbled :
    IsLeast {q | IsInReach garbled 0 none 4096 q} 6 ∧
      readNext? none 4096 ⟨garbled, 0⟩ =
        (.ok (some ⟨.simple Command.playWav "x", 6⟩), ⟨garbled, 15⟩) := by
  have hnext : next? garbled 0 none 4096 = some (⟨.simple Command.playWav "x", 6⟩, 15) := by
    decide +kernel
  have hnearest := (readNext?_nearest (c := ⟨garbled, 0⟩) (Nat.zero_le _) none 4096).2
  rw [hnext] at hnearest
  exact ⟨hnearest.1, hnearest.2.2⟩

end Record

end PointAndClick
