import PointAndClick.Hotspot.EventGroup
import PointAndClick.Proofs.Encoding.Record

/-!
# Zero words between groups

Zero words are passed over up to a position that `StopsPadding`: no zero word stands there, and a
zero word right before it does not look like the start of a group. The elements of a scene that
may follow zero words all do: groups, words that are too large for a count, scene markers, and the
end of the buffer.
-/

set_option autoImplicit false

namespace PointAndClick.EventGroup

open Buffer

/-! ## Looks of a group -/

/-- A command record is decoded at a position. -/
def hasCommand (b : Buffer) (pos : Nat) : Bool :=
  match Record.decode b pos with
  | .ok (r, _) => r.code?.isSome
  | .error _ => false

theorem looksLike_iff {b : Buffer} {pos : Nat} : looksLike b pos = true ↔
    pos + 8 ≤ b.size ∧ b.wordAt pos ≤ maxEventType ∧ 0 < b.wordAt (pos + 4) ∧
      b.wordAt (pos + 4) ≤ maxRecords ∧ hasCommand b (pos + 8) = true := by
  have hlooks : looksLike b pos =
      (pos + 8 ≤ b.size && b.wordAt pos ≤ maxEventType && 0 < b.wordAt (pos + 4) &&
        b.wordAt (pos + 4) ≤ maxRecords && hasCommand b (pos + 8)) := rfl
  simp only [hlooks, Bool.and_eq_true, decide_eq_true_eq, and_assoc]

theorem hasCommand_of_hasAt {b : Buffer} {p : Payload} {pos : Nat} (hp : p.IsStorable)
    (hcommand : p.isCommand = true) (h : b.HasAt pos p.encode) : hasCommand b pos = true := by
  rw [hasCommand, Payload.readsAt_decode hp pos b h]
  show (Record.code? ⟨p, pos⟩).isSome = true
  rw [← Payload.isCommand_eq]
  exact hcommand

theorem looksLike_eq_false_of_count {b : Buffer} {pos : Nat} (h : maxRecords < b.wordAt (pos + 4)) :
    looksLike b pos = false := by
  rw [← Bool.not_eq_true, looksLike_iff]
  omega

theorem looksLike_eq_false_of_zero {b : Buffer} {pos : Nat} (h : b.wordAt (pos + 4) = 0) :
    looksLike b pos = false := by
  rw [← Bool.not_eq_true, looksLike_iff]
  omega

theorem looksLike_eq_false_of_size {b : Buffer} {pos : Nat} (h : b.size < pos + 8) :
    looksLike b pos = false := by
  rw [← Bool.not_eq_true, looksLike_iff]
  omega

/-- A word is no type of a group if a null record stands where its first record would. -/
theorem looksLike_eq_false_of_null {b : Buffer} {pos : Nat}
    (h : b.HasAt (pos + 8) (Encode.zeroWords 1)) : looksLike b pos = false := by
  have hnull : Record.decode b (pos + 8) = .ok (⟨.null, pos + 8⟩, pos + 8 + 4) :=
    Payload.readsAt_decode (p := .null) trivial (pos + 8) b h
  simp [looksLike, hnull, Record.code?]

theorem startsGroup_eq_false_of_looksLike {b : Buffer} {pos : Nat}
    (h : looksLike b (pos + 4) = true) : startsGroup b pos = false := by
  simp [startsGroup, h]

theorem startsGroup_eq_false {b : Buffer} {pos : Nat} (h : looksLike b pos = false) :
    startsGroup b pos = false := by
  simp [startsGroup, h]

/-! ## Where padding stops -/

/-- Zero words are passed over up to a position. -/
structure StopsPadding (b : Buffer) (stop : Nat) : Prop where
  nonzero : stop + 4 ≤ b.size → b.wordAt stop ≠ 0
  unclaimed : ∀ pos, pos + 4 = stop → startsGroup b pos = false

theorem stopsPadding_of_large {b : Buffer} {stop : Nat} (h : maxRecords < b.wordAt stop) :
    StopsPadding b stop where
  nonzero := fun _ => by omega
  unclaimed := by
    rintro pos rfl
    exact startsGroup_eq_false (looksLike_eq_false_of_count h)

/-! ## Passing over padding -/

/-- Zero words run from a position up to another one, and passing over them stops there. -/
structure PaddingTo (b : Buffer) (pos stop : Nat) : Prop where
  words : ∃ n, stop = pos + 4 * n ∧ b.HasAt pos (Encode.zeroWords n)
  nonzero : stop + 4 ≤ b.size → b.wordAt stop ≠ 0
  unclaimed : ∀ p, pos ≤ p → p + 4 = stop → startsGroup b p = false

theorem StopsPadding.paddingTo {b : Buffer} {pos n : Nat} (h : StopsPadding b (pos + 4 * n))
    (hzero : b.HasAt pos (Encode.zeroWords n)) : PaddingTo b pos (pos + 4 * n) where
  words := ⟨n, rfl, hzero⟩
  nonzero := h.nonzero
  unclaimed := fun p _ hp => h.unclaimed p hp

/-- No padding at all. -/
theorem paddingTo_self {b : Buffer} {pos : Nat} (h : b.wordAt pos ≠ 0) : PaddingTo b pos pos where
  words := ⟨0, rfl, hasAt_nil b pos⟩
  nonzero := fun _ => h
  unclaimed := fun p hle hp => by omega

theorem PaddingTo.le {b : Buffer} {pos stop : Nat} (h : PaddingTo b pos stop) : pos ≤ stop := by
  obtain ⟨n, hstop, -⟩ := h.words
  omega

/-- The word at the start of padding is zero, unless the padding is empty. -/
theorem PaddingTo.wordAt {b : Buffer} {pos stop : Nat} (h : PaddingTo b pos stop) :
    stop = pos ∨ b.wordAt pos = 0 := by
  obtain ⟨n, hstop, hzero⟩ := h.words
  by_cases hn : n = 0
  · exact Or.inl (by omega)
  · exact Or.inr (hzero.zeroWord (k := 0) (by omega)).1

theorem PaddingTo.tail {b : Buffer} {pos stop : Nat} (h : PaddingTo b pos stop)
    (hne : pos ≠ stop) : PaddingTo b (pos + 4) stop := by
  obtain ⟨n, hstop, hzero⟩ := h.words
  cases n with
  | zero => omega
  | succ n =>
      rw [Nat.add_comm n 1, Encode.zeroWords_add, hasAt_append] at hzero
      exact ⟨⟨n, by omega, hzero.2⟩, h.nonzero, fun p hp => h.unclaimed p (by omega)⟩

/-- A zero word of padding does not start a group. -/
theorem PaddingTo.startsGroup {b : Buffer} {pos stop : Nat} (h : PaddingTo b pos stop)
    (hne : pos ≠ stop) : startsGroup b pos = false := by
  rcases (h.tail hne).wordAt with hstop | hzero
  · exact h.unclaimed pos (Nat.le_refl _) hstop.symm
  · exact startsGroup_eq_false (looksLike_eq_false_of_zero hzero)

theorem paddingEnd_eq {b : Buffer} {pos stop : Nat} (h : PaddingTo b pos stop) {fuel : Nat}
    (hfuel : stop ≤ pos + 4 * fuel) : paddingEnd b b.size fuel pos = stop := by
  induction fuel generalizing pos with
  | zero =>
      have hle := h.le
      show pos = stop
      omega
  | succ fuel ih =>
      by_cases hpos : pos = stop
      -- either no word is left here, or it is not zero
      · subst hpos
        have hstays : ¬(pos + 4 ≤ b.size ∧ b.wordAt pos = 0) := fun hz => h.nonzero hz.1 hz.2
        rw [paddingEnd, if_neg]
        simp only [Bool.and_eq_true, decide_eq_true_eq]
        exact fun hz => hstays ⟨hz.1.1.1, hz.1.2⟩
      -- a word of the padding takes one step, and so four bytes off what is left
      · have hzero : b.wordAt pos = 0 := h.wordAt.resolve_left (Ne.symm hpos)
        have hsize : pos + 4 ≤ b.size := by
          obtain ⟨n, hstop, hwords⟩ := h.words
          have hbound := (hwords.zeroWord (k := 0) (by omega)).2
          omega
        rw [paddingEnd, if_pos]
        · exact ih (h.tail hpos) (by omega)
        · simp [hsize, hzero, h.startsGroup hpos]

/-- Padding is passed over as a whole. -/
theorem skipPadding_eq {b : Buffer} {pos stop : Nat} (h : PaddingTo b pos stop) :
    skipPadding b b.size pos = (stop, .ok ()) := by
  have hfuel : stop ≤ pos + 4 * (b.size / 4 + 1) := by
    obtain ⟨n, hstop, hwords⟩ := h.words
    by_cases hn : n = 0
    · omega
    · have hbound := (hwords.zeroWord (k := 0) (by omega)).2
      omega
  have hend := paddingEnd_eq h hfuel
  simp only [skipPadding, hend]
  -- the limit is the end of the buffer, so that it is not beyond it
  rw [if_neg]
  simp only [Bool.and_eq_true, decide_eq_true_eq]
  omega

end PointAndClick.EventGroup
