import PointAndClick.Project.Header
import PointAndClick.Project.Variable
import PointAndClick.Record.Decode
import PointAndClick.Scene.Table

/-!
# How far decoders come

A decoder that gives a value never stops before the position it started from nor beyond the end of
the buffer; `Takes` also says how many bytes it passes over at least. A header can only fail for
want of bytes. Both carry over from the steps of a decoder to the whole.
-/

set_option autoImplicit false

namespace PointAndClick

namespace Decoder

variable {α β : Type}

/-- The decoder passes over at least some number of bytes, and stops inside the buffer if it
started there. -/
def Takes (d : Decoder α) (count : Nat) : Prop :=
  ∀ b pos a after, d b pos = .ok (a, after) →
    pos + count ≤ after ∧ (pos ≤ b.size → after ≤ b.size)

/-- The decoder fails only for want of bytes. -/
def FailsOutOfBounds (d : Decoder α) : Prop :=
  ∀ b pos e, d b pos = .error e → e.category = .outOfBounds

theorem bind_eq_error {d : Decoder α} {next : α → Decoder β} {b : Buffer} {pos : Nat}
    {e : DecodeError} : (d >>= next) b pos = .error e ↔
      d b pos = .error e ∨ ∃ a after, d b pos = .ok (a, after) ∧ next a b after = .error e := by
  cases hd : d b pos with
  | error e' => simp [Bind.bind, hd]
  | ok r =>
      obtain ⟨a, after⟩ := r
      have hbind : (d >>= next) b pos = next a b after := by simp only [Bind.bind, hd]
      rw [hbind]
      constructor
      · exact fun h => Or.inr ⟨a, after, rfl, h⟩
      · rintro (h | ⟨_, _, h, hnext⟩)
        · cases h
        · cases h
          exact hnext

/-! ## Bytes passed over -/

theorem takes_pure (a : α) : Takes (pure a) 0 := by
  rintro b pos _ _ ⟨⟩
  exact ⟨Nat.le_refl _, id⟩

theorem takes_fail (e : DecodeError) (count : Nat) : Takes (fail e : Decoder α) count := by
  rintro b pos a after ⟨⟩

theorem Takes.bind {d : Decoder α} {next : α → Decoder β} {m n : Nat} (hd : Takes d m)
    (hnext : ∀ a, Takes (next a) n) : Takes (d >>= next) (m + n) := by
  intro b pos c after h
  obtain ⟨a, middle, hfirst, hsecond⟩ := bind_eq_ok.mp h
  obtain ⟨hlow, hhigh⟩ := hd b pos a middle hfirst
  obtain ⟨hlow', hhigh'⟩ := hnext a b middle c after hsecond
  exact ⟨by omega, fun hpos => hhigh' (hhigh hpos)⟩

theorem Takes.mono {d : Decoder α} {m n : Nat} (hd : Takes d m) (hle : n ≤ m) : Takes d n := by
  intro b pos a after h
  obtain ⟨hlow, hhigh⟩ := hd b pos a after h
  exact ⟨by omega, hhigh⟩

/-- The last step of a decoder that puts its value together. -/
theorem Takes.map {d : Decoder α} {f : α → β} {count : Nat} (hd : Takes d count) :
    Takes (d >>= fun a => pure (f a)) count :=
  hd.bind fun _ => takes_pure _

theorem takes_position : Takes position 0 := by
  rintro b pos _ _ ⟨⟩
  exact ⟨Nat.le_refl _, id⟩

theorem takes_skip (count : Nat) : Takes (skip count) count := by
  intro b pos a after h
  unfold skip at h
  split at h
  · cases h
  · cases h
    exact ⟨Nat.le_refl _, fun _ => by omega⟩

theorem takes_fixed (width : Nat) (value : Buffer → Nat → α) : Takes (fixed width value) width := by
  intro b pos a after h
  unfold fixed at h
  split at h
  · cases h
  · cases h
    exact ⟨Nat.le_refl _, fun _ => by omega⟩

theorem takes_text (absent : Nat → DecodeError) : Takes (text absent) 4 := by
  intro b pos s after h
  unfold text at h
  split at h
  · next r hr =>
      cases h
      have hbounds := Buffer.textAt?_bounds hr
      exact ⟨hbounds.1, fun _ => hbounds.2⟩
  · cases h

theorem takes_textOrEmpty : Takes textOrEmpty 4 := by
  intro b pos s after h
  obtain ⟨text, middle, hread, hrest⟩ := bind_eq_ok.mp h
  unfold text? at hread
  cases htext : b.textAt? pos with
  | none =>
      rw [htext] at hread
      cases hread
      -- where no text is found, its length is passed over all the same
      exact ((takes_skip 4).bind fun _ => takes_pure "") b pos s after hrest
  | some r =>
      rw [htext] at hread
      cases hread
      cases hrest
      have hbounds := Buffer.textAt?_bounds htext
      exact ⟨hbounds.1, fun _ => hbounds.2⟩

/-! ## Failures for want of bytes -/

theorem failsOutOfBounds_pure (a : α) : FailsOutOfBounds (pure a) := by
  rintro b pos e ⟨⟩

theorem FailsOutOfBounds.bind {d : Decoder α} {next : α → Decoder β} (hd : FailsOutOfBounds d)
    (hnext : ∀ a, FailsOutOfBounds (next a)) : FailsOutOfBounds (d >>= next) := by
  intro b pos e h
  rcases bind_eq_error.mp h with hfirst | ⟨a, middle, -, hsecond⟩
  · exact hd b pos e hfirst
  · exact hnext a b middle e hsecond

theorem failsOutOfBounds_skip (count : Nat) : FailsOutOfBounds (skip count) := by
  intro b pos e h
  unfold skip at h
  split at h
  · cases h
    rfl
  · cases h

theorem failsOutOfBounds_fixed (width : Nat) (value : Buffer → Nat → α) :
    FailsOutOfBounds (fixed width value) := by
  intro b pos e h
  unfold fixed at h
  split at h
  · cases h
    rfl
  · cases h

theorem failsOutOfBounds_textOrEmpty : FailsOutOfBounds textOrEmpty := by
  refine FailsOutOfBounds.bind ?_ fun text => ?_
  · intro b pos e h
    unfold text? at h
    split at h <;> cases h
  · cases text with
    | some s => exact failsOutOfBounds_pure s
    | none => exact (failsOutOfBounds_skip 4).bind fun _ => failsOutOfBounds_pure ""

end Decoder

open Decoder

/-! ## Records -/

namespace Record

theorem takes_decodePoints (count : Nat) : Takes (decodePoints count) 0 := by
  induction count with
  | zero => exact takes_pure []
  | succ count ih =>
      exact ((takes_fixed 4 _).bind fun _ => (takes_fixed 4 _).bind fun _ => ih.map).mono
        (Nat.zero_le _)

theorem takes_decodePayload (tag start : Nat) : Takes (decodePayload tag start) 0 := by
  have htext : ∀ f : String → Payload, Takes (Decoder.text (fun _ => .implausibleText start) >>=
      fun t => pure (f t)) 4 := fun f => (takes_text _).map
  unfold decodePayload
  split
  · exact takes_pure _
  split
  · exact takes_pure _
  split
  · exact ((takes_fixed 4 _).bind fun _ => htext _).mono (Nat.zero_le _)
  split
  · exact ((takes_fixed 4 _).bind fun _ => htext _).mono (Nat.zero_le _)
  split
  · exact (htext _).mono (Nat.zero_le _)
  split
  · refine Takes.mono (m := 4 + 0) ((takes_fixed 4 _).bind fun count => ?_) (Nat.zero_le _)
    split
    · exact takes_fail _ _
    · exact (takes_decodePoints _).map
  · exact takes_fail _ _

/-- A record takes at least the word of its tag. -/
theorem takes_decode : Takes decode 4 :=
  takes_position.bind fun start => (takes_fixed 4 _).bind fun tag =>
    (takes_decodePayload tag start).map

/-- A decoded record: its payload is what its tag asks for, and it knows its position. -/
theorem decode_eq_ok {b : Buffer} {pos after : Nat} {r : Record} (h : decode b pos = .ok (r, after)) :
    r.offset = pos ∧
      decodePayload (b.wordAt pos) pos b (pos + 4) = .ok (r.payload, after) := by
  obtain ⟨start, middle, hstart, h⟩ := bind_eq_ok.mp h
  cases hstart
  obtain ⟨tag, middle, htag, h⟩ := bind_eq_ok.mp h
  obtain ⟨payload, last, hpayload, h⟩ := bind_eq_ok.mp h
  cases h
  unfold Decoder.word fixed at htag
  split at htag
  · cases htag
  · cases htag
    exact ⟨rfl, hpayload⟩

end Record

/-! ## Headers and variables -/

theorem Header.takes_decode : Takes Header.decode 0 := by
  have hword : Takes Decoder.word 0 := (takes_fixed 4 _).mono (Nat.zero_le _)
  have htext : Takes textOrEmpty 0 := takes_textOrEmpty.mono (Nat.zero_le _)
  have hflags : Takes (bytes 5) 0 := (takes_fixed 5 _).mono (Nat.zero_le _)
  exact hflags.bind fun _ => htext.bind fun _ => htext.bind fun _ => hword.bind fun _ =>
    htext.bind fun _ => htext.bind fun _ => htext.bind fun _ => htext.bind fun _ =>
    htext.bind fun _ => hword.bind fun _ => hword.bind fun _ => hword.bind fun _ =>
    hword.bind fun _ => hword.bind fun _ => hword.bind fun _ => hword.bind fun _ =>
    htext.bind fun _ => hword.map

/-- A header can only be cut short. -/
theorem Header.failsOutOfBounds_decode : FailsOutOfBounds Header.decode := by
  have hword : FailsOutOfBounds Decoder.word := failsOutOfBounds_fixed 4 _
  have htext : FailsOutOfBounds textOrEmpty := failsOutOfBounds_textOrEmpty
  have hflags : FailsOutOfBounds (bytes 5) := failsOutOfBounds_fixed 5 _
  exact hflags.bind fun _ => htext.bind fun _ => htext.bind fun _ => hword.bind fun _ =>
    htext.bind fun _ => htext.bind fun _ => htext.bind fun _ => htext.bind fun _ =>
    htext.bind fun _ => hword.bind fun _ => hword.bind fun _ => hword.bind fun _ =>
    hword.bind fun _ => hword.bind fun _ => hword.bind fun _ => hword.bind fun _ =>
    htext.bind fun _ => hword.bind fun _ => failsOutOfBounds_pure _

namespace Variable

/-- A variable takes at least the length of its name and its value. -/
theorem at?_bounds {b : Buffer} {pos after : Nat} {v : Variable}
    (h : at? b pos = some (v, after)) : pos + 8 ≤ after ∧ after ≤ b.size := by
  unfold at? at h
  split at h
  · cases h
  · next name middle htext =>
      have hbounds := Buffer.textAt?_bounds htext
      split at h
      · cases h
      · cases h
        omega

theorem collect_bounds (b : Buffer) (fuel count pos : Nat) :
    pos ≤ (collect b fuel count pos).2 ∧
      (pos ≤ b.size → (collect b fuel count pos).2 ≤ b.size) := by
  fun_induction collect b fuel count pos with
  | case1 => exact ⟨Nat.le_refl _, id⟩
  | case2 fuel count pos v after hat rest last hcollect ih =>
      have hbounds := at?_bounds hat
      rw [hcollect] at ih
      exact ⟨by omega, fun _ => ih.2 hbounds.2⟩
  | case3 => exact ⟨Nat.le_refl _, id⟩

end Variable

/-! ## Descriptors -/

namespace Descriptor

/-- A descriptor takes at least its name, its flag, the length of its background and its reserved
bytes. -/
theorem takes_decode (index : Nat) : Takes (decode index) 87 :=
  takes_position.bind fun _ => (takes_fixed 50 _).map.bind fun _ => (takes_fixed 1 _).bind fun _ =>
    takes_textOrEmpty.bind fun _ => (takes_skip 32).bind fun _ => takes_position.map

/-- What looks like a descriptor has room for its name, its flag and the length of its
background. -/
theorem le_size_of_looksLike {b : Buffer} {pos : Nat} (h : looksLike b pos = true) :
    pos + 55 ≤ b.size := by
  simp only [looksLike, Bool.and_eq_true, decide_eq_true_eq] at h
  exact h.1.1.1.1.1

/-- A padded name begins with a printable byte. -/
theorem exists_cons_of_isPaddedName {bytes : List UInt8} (h : isPaddedName bytes = true) :
    ∃ x xs, bytes = x :: xs ∧ isPrintableByte x = true := by
  simp only [isPaddedName, Bool.and_eq_true, Bool.not_eq_true'] at h
  obtain ⟨⟨hne, hprintable⟩, -⟩ := h
  cases bytes with
  | nil => nomatch hne
  | cons x xs =>
      by_cases hx : x = 0
      · simp [hx] at hne
      · rw [List.takeWhile_cons_of_pos (by simpa using hx), List.all_cons,
          Bool.and_eq_true] at hprintable
        exact ⟨x, xs, rfl, hprintable.1⟩

/-- What looks like a descriptor starts with a byte with which a name may start. -/
theorem mayStart_of_looksLike {b : Buffer} {pos : Nat} (h : looksLike b pos = true) :
    mayStart b pos = true := by
  simp only [looksLike, Bool.and_eq_true, decide_eq_true_eq] at h
  obtain ⟨x, xs, hslice, hx⟩ := exists_cons_of_isPaddedName h.1.1.1.1.2
  have hfirst : b[pos]? = some x := by
    have hhead : (b.slice pos nameWidth).head? = some x := by rw [hslice]; rfl
    simpa [Buffer.slice, Array.toList_extract, nameWidth, List.head?_take] using hhead
  rw [isPrintableByte, Bool.and_eq_true, decide_eq_true_eq, decide_eq_true_eq,
    UInt8.le_iff_toNat_le, ne_eq, ← UInt8.toNat_inj] at hx
  rw [mayStart, Buffer.byteAt, hfirst, Bool.and_eq_true, decide_eq_true_eq, decide_eq_true_eq]
  exact hx

/-- The first byte is looked at to save work only: it never rules out a descriptor. -/
theorem search_succ (b : Buffer) (count pos : Nat) :
    search b (count + 1) pos =
      if looksLike b pos then some pos else search b count (pos + 1) := by
  rw [search]
  cases hlooks : looksLike b pos with
  | false => rw [Bool.and_false]
  | true => rw [mayStart_of_looksLike hlooks, Bool.and_self]

/-- A decoded descriptor knows its index and where it starts and ends. -/
theorem decode_eq_ok {b : Buffer} {index pos after : Nat} {d : Descriptor}
    (h : decode index b pos = .ok (d, after)) :
    d.index = index ∧ d.offset = pos ∧ d.stop = after := by
  obtain ⟨start, _, hstart, h⟩ := bind_eq_ok.mp h
  cases hstart
  obtain ⟨name, _, -, h⟩ := bind_eq_ok.mp h
  obtain ⟨flag, _, -, h⟩ := bind_eq_ok.mp h
  obtain ⟨background, _, -, h⟩ := bind_eq_ok.mp h
  obtain ⟨_, _, -, h⟩ := bind_eq_ok.mp h
  obtain ⟨stop, _, hstop, h⟩ := bind_eq_ok.mp h
  cases hstop
  cases h
  exact ⟨rfl, rfl, rfl⟩

end Descriptor

end PointAndClick
