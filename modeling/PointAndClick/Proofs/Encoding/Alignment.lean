import PointAndClick.Proofs.Encoding.CountedGroup

/-!
# Zero words that could be the type of a group

A group of type 0 starts with a zero word, and so does padding. Where zero words are followed by
such a group, or by a tip text, the same bytes may also read as a group one word off: the bytes
behind the tag of a command, or behind that of a font record, may happen to be a command themselves.
Whether they are is all that counts (`skipPadding_stops_where_written`).
-/

set_option autoImplicit false

namespace PointAndClick.EventGroup

open Buffer Assembler

variable {b : Buffer} {pos start : Nat}

/-! ## Padding before a group of type 0 -/

theorem paddingEnd_of_startsGroup {n fuel : Nat} (hzero : b.HasAt pos (Encode.zeroWords (n + 1)))
    (hstart : startsGroup b (pos + 4 * n) = true) (hfuel : n ≤ fuel) :
    paddingEnd b b.size fuel pos = pos + 4 * n := by
  induction n generalizing pos fuel with
  | zero =>
      cases fuel with
      | zero => rfl
      | succ fuel =>
          rw [paddingEnd, if_neg]
          · rfl
          · simp [show startsGroup b pos = true from hstart]
  | succ n ih =>
      obtain ⟨hword, hsize⟩ := hzero.zeroWord (k := 0) (by omega)
      have hnext := (hzero.zeroWord (k := 1) (by omega)).1
      rw [Nat.add_comm (n + 1) 1, Encode.zeroWords_add, hasAt_append] at hzero
      have hrest : b.HasAt (pos + 4) (Encode.zeroWords (n + 1)) := hzero.2
      cases fuel with
      | zero => omega
      | succ fuel =>
          -- the word behind this one is zero as well, so it is no count
          have hno : startsGroup b pos = false :=
            startsGroup_eq_false (looksLike_eq_false_of_zero hnext)
          have hstop : pos + 4 * (n + 1) = pos + 4 + 4 * n := by omega
          rw [hstop] at hstart ⊢
          rw [paddingEnd, if_pos]
          · exact ih hrest hstart (Nat.le_of_succ_le_succ hfuel)
          · simp only [Bool.and_eq_true, decide_eq_true_eq, hno, Bool.not_false, and_true]
            exact ⟨⟨by omega, by omega⟩, hword⟩

/-- Zero words are passed over up to one that starts a group. -/
theorem skipPadding_of_startsGroup {n : Nat} (hzero : b.HasAt pos (Encode.zeroWords (n + 1)))
    (hstart : startsGroup b (pos + 4 * n) = true) :
    skipPadding b b.size pos = (pos + 4 * n, .ok ()) := by
  have hsize := (hzero.zeroWord (k := 0) (by omega)).2
  have hfuel : n ≤ b.size / 4 + 1 := by omega
  have hend := paddingEnd_of_startsGroup hzero hstart hfuel
  simp only [skipPadding, hend]
  -- the limit is the end of the buffer, so that it is not beyond it
  rw [if_neg]
  simp only [Bool.and_eq_true, decide_eq_true_eq]
  omega

namespace CountedGroup

variable {g : CountedGroup}

/-- A group also fits one word behind the start of a group: the count could be a type, and what
follows the tag of the first record is a command. -/
def FitsLater (g : CountedGroup) (b : Buffer) (start : Nat) : Prop :=
  g.count ≤ maxEventType ∧ hasCommand b (start + 12) = true

theorem looksLike_add_four (h : b.HasAt start g.encode) :
    EventGroup.looksLike b (start + 4) = true ↔ g.FitsLater b start := by
  obtain ⟨-, hcount, hrecords⟩ := wordAt_of_hasAt h
  have hsize := add_sixteen_le_size h
  have hstorable := g.storable _ List.mem_cons_self
  have htag := hstorable.wordAt (hasAt_append.mp hrecords).1
  obtain ⟨hpos, hmax, -⟩ := tagWord_of_isCommand hstorable g.first_isCommand
  rw [looksLike_iff, hcount, Nat.add_assoc, Nat.add_assoc, htag]
  exact ⟨fun hlooks => ⟨hlooks.2.1, hlooks.2.2.2.2⟩,
    fun hfits => ⟨by omega, hfits.1, hpos, hmax, hfits.2⟩⟩

/-- Padding before a group of type 0 is passed over up to it, or up to its second word if a group
also fits there. -/
theorem skipPadding_eq {k : Nat} (htype : g.eventType = 0)
    (h : b.HasAt pos (Encode.zeroWords k ++ g.encode)) :
    (g.FitsLater b (pos + 4 * k) → skipPadding b b.size pos = (pos + 4 * k + 4, .ok ())) ∧
      (¬g.FitsLater b (pos + 4 * k) → skipPadding b b.size pos = (pos + 4 * k, .ok ())) := by
  obtain ⟨hzero, hgroup⟩ := hasAt_append.mp h
  rw [Encode.length_zeroWords] at hgroup
  obtain ⟨-, hcount, -⟩ := wordAt_of_hasAt hgroup
  have hlt := g.length_lt
  -- the type is one more zero word
  have hzeros : b.HasAt pos (Encode.zeroWords (k + 1)) := by
    rw [Encode.zeroWords_add, hasAt_append, Encode.length_zeroWords, Encode.zeroWords_one, ← htype]
    exact ⟨hzero, (hasAt_append.mp hgroup).1⟩
  constructor
  · intro hfits
    have hpadding : PaddingTo b pos (pos + 4 * k + 4) :=
      ⟨⟨k + 1, by omega, hzeros⟩, fun _ => by omega, fun p _ hp => by
        have hp : p = pos + 4 * k := by omega
        exact hp ▸ startsGroup_eq_false_of_looksLike ((looksLike_add_four hgroup).mpr hfits)⟩
    exact EventGroup.skipPadding_eq hpadding
  · intro hfits
    refine skipPadding_of_startsGroup hzeros ?_
    rw [startsGroup, looksLike hgroup, Bool.true_and, Bool.not_eq_true', ← Bool.not_eq_true,
      looksLike_add_four hgroup]
    exact hfits

end CountedGroup

/-! ## Padding before a tip text -/

/-- A group also fits one word before a tip text: there is a zero word that could be its type, and
what follows the tag of the font record is a command. -/
def FitsEarlier (b : Buffer) (padding start : Nat) : Prop :=
  0 < padding ∧ hasCommand b (start + 4) = true

/-- Padding before a tip text is passed over up to it, or up to its last zero word if a group also
fits there. -/
theorem skipPadding_tip {t : StoredTip} {k : Nat}
    (h : b.HasAt pos (Encode.zeroWords k ++ Payload.encodeAll t.records)) :
    (FitsEarlier b k (pos + 4 * k) →
        skipPadding b b.size pos = (pos + 4 * k - 4, .ok ())) ∧
      (¬FitsEarlier b k (pos + 4 * k) →
        skipPadding b b.size pos = (pos + 4 * k, .ok ())) := by
  obtain ⟨hzero, htip⟩ := hasAt_append.mp h
  rw [Encode.length_zeroWords] at htip
  obtain ⟨hfont, hsize⟩ := wordAt_tip htip
  have hmaxType : maxEventType = 10 := rfl
  have hmaxRecords : maxRecords = 50 := rfl
  -- the type of a group may stand right before the tip text, but not where that starts
  have hbefore (p : Nat) (hp : p + 4 = pos + 4 * k) (hk : 0 < k) :
      startsGroup b p = hasCommand b (pos + 4 * k + 4) := by
    have hword : b.wordAt p = 0 := by
      have hword := (hzero.zeroWord (k := k - 1) (by omega)).1
      rwa [show pos + 4 * (k - 1) = p by omega] at hword
    have hhere : looksLike b (p + 4) = false := by
      rw [← Bool.not_eq_true, looksLike_iff, hp, hfont]
      omega
    rw [startsGroup, hhere, Bool.not_false, Bool.and_true, Bool.eq_iff_iff, looksLike_iff, hword,
      hp, hfont, show p + 8 = pos + 4 * k + 4 by omega]
    exact ⟨fun hlooks => hlooks.2.2.2.2,
      fun hcommand => ⟨by omega, by omega, by omega, by omega, hcommand⟩⟩
  constructor
  · rintro ⟨hk, hcommand⟩
    obtain ⟨n, rfl⟩ : ∃ n, k = n + 1 := ⟨k - 1, by omega⟩
    have hstop : pos + 4 * (n + 1) - 4 = pos + 4 * n := by omega
    rw [hstop]
    exact skipPadding_of_startsGroup hzero
      ((hbefore (pos + 4 * n) (by omega) hk).trans hcommand)
  · intro hfits
    have hpadding : PaddingTo b pos (pos + 4 * k) :=
      ⟨⟨k, rfl, hzero⟩, fun _ => by omega, fun p hle hp => by
        have hk : 0 < k := by omega
        rw [hbefore p hp hk, ← Bool.not_eq_true]
        exact fun hcommand => hfits ⟨hk, hcommand⟩⟩
    exact EventGroup.skipPadding_eq hpadding

/-! ## Padding stops where something was written -/

/-- Zero words are passed over up to a group of type 0 or a tip text that stands behind them, with
one exception each: if a group also fits one word behind the start of the group, they are passed
over up to there, and if one fits on the last zero word before the tip text, up to that word.
Without the exception the group is the first one read, with its records and no other command for
its hotspot, and a tip text behind the records of a group becomes part of that group's hotspot. -/
theorem skipPadding_stops_where_written (b : Buffer) (pos k : Nat) :
    let start := pos + 4 * k
    (∀ g : CountedGroup, g.eventType = 0 → b.HasAt pos (Encode.zeroWords k ++ g.encode) →
      (g.FitsLater b start → skipPadding b b.size pos = (start + 4, .ok ())) ∧
      (¬g.FitsLater b start → skipPadding b b.size pos = (start, .ok ()) ∧
        ∀ (a : Assembler) (maxDistance : Nat),
          g.IsReadFirst start a (readAll b none maxDistance ⟨pos, a⟩))) ∧
    (∀ t : StoredTip, b.HasAt pos (Encode.zeroWords k ++ Payload.encodeAll t.records) →
      (FitsEarlier b k start → skipPadding b b.size pos = (start - 4, .ok ())) ∧
      (¬FitsEarlier b k start → skipPadding b b.size pos = (start, .ok ()) ∧
        ∀ (g : CountedGroup) (first : Nat), (∀ p ∈ g.records, p.isShape = false) →
          b.HasAt first g.encode → first + g.encode.length = pos →
          ∀ (a : Assembler) (maxDistance : Nat),
            g.IsReadWithTip first t start a (read b b.size maxDistance ⟨first, a⟩))) := by
  intro start
  have hat {bytes : List UInt8} (h : b.HasAt pos (Encode.zeroWords k ++ bytes)) :
      b.HasAt start bytes := by
    have hbytes := (hasAt_append.mp h).2
    rwa [Encode.length_zeroWords] at hbytes
  refine ⟨fun g htype h => ?_, fun t h => ?_⟩
  · obtain ⟨hlater, hstops⟩ := CountedGroup.skipPadding_eq htype h
    refine ⟨hlater, fun hfits => ⟨hstops hfits, fun a maxDistance => ?_⟩⟩
    exact readAll_of_hasAt (hat h) (hstops hfits) (Nat.le_add_right _ _) a maxDistance
  · obtain ⟨hearlier, hstops⟩ := skipPadding_tip h
    refine ⟨hearlier, fun hfits => ⟨hstops hfits, ?_⟩⟩
    intro g first hrest hgroup hpos a maxDistance
    exact read_tip_of_hasAt hrest hgroup hpos (hat h) (hstops hfits) a maxDistance

/-- A group of type 0 with one sound. -/
def soundGroup : CountedGroup where
  eventType := 0
  count := 1
  first := .simple Command.playWav "first.wav"
  rest := []
  eventType_le := by decide
  count_le := by decide
  length_lt := by decide
  first_isCommand := rfl
  storable := by decide
  complete := .inl rfl

/-- A tip text with both of its records. -/
def gardenTip : StoredTip where
  font := "Arial 10"
  text := some "Go to the garden"
  fontStorable := by decide
  textStorable := by rintro t ⟨⟩; decide

theorem skipPadding_stops_where_written_garden :
    let b : Buffer := (Encode.zeroWords 2 ++ soundGroup.encode ++ Encode.zeroWords 1 ++
      Payload.encodeAll gardenTip.records).toArray
    let new : Assembler := { flat := false }
    let sounds : List Record := [⟨.simple Command.playWav "first.wav", 16⟩]
    skipPadding b b.size 0 = (8, .ok ()) ∧
    (∃ h, (readAll b none (4096 : Nat) ⟨0, new⟩).progress.assembler.finish.hotspots[0]? = some h ∧
      h.eventType = some 0 ∧ h.commands = sounds) ∧
    skipPadding b b.size 33 = (37, .ok ()) ∧
    ∃ h, (read b b.size (4096 : Nat) ⟨8, new⟩).1.assembler.finish.hotspots[0]? = some h ∧
      h.commands = sounds ∧ h.hover = Record.placed 37 gardenTip.records := by
  intro b new sounds
  have hgroup : b.HasAt 0 (Encode.zeroWords 2 ++ soundGroup.encode) := by
    unfold HasAt
    decide +kernel
  have htip : b.HasAt 33 (Encode.zeroWords 1 ++ Payload.encodeAll gardenTip.records) := by
    unfold HasAt
    decide +kernel
  have hlater : ¬soundGroup.FitsLater b 8 := by
    unfold CountedGroup.FitsLater
    decide +kernel
  have hearlier : ¬FitsEarlier b 1 37 := by
    unfold FitsEarlier
    decide +kernel
  have hrest : ∀ p ∈ soundGroup.records, p.isShape = false := by decide
  obtain ⟨hskip, hread⟩ :=
    ((skipPadding_stops_where_written b 0 2).1 soundGroup rfl hgroup).2 hlater
  obtain ⟨hskip', hread'⟩ := ((skipPadding_stops_where_written b 33 1).2 gardenTip htip).2 hearlier
  obtain ⟨h, hfound, hgroup'⟩ := (hread new 4096).hotspot rfl (by decide +kernel)
  obtain ⟨h', hfound', hfirst, -, hhover⟩ := (hread' soundGroup 8 hrest
    ((hasAt_append.mp hgroup).2) rfl new 4096).hotspot rfl
  have hcommands : soundGroup.commands 8 = sounds := by decide +kernel
  have hnone : new.finish.hotspots.length = 0 := rfl
  rw [hnone] at hfound hfound'
  exact ⟨hskip, ⟨h, hfound, hgroup'.eventType, hgroup'.commands.trans hcommands⟩, hskip',
    h', hfound', hfirst.commands.trans hcommands, hhover rfl⟩

/-- A group of type 0 whose command reads as a group of type 1 one word further on. -/
def nextGroup : CountedGroup where
  eventType := 0
  count := 1
  first := .wrapper 6 "Next"
  rest := []
  eventType_le := by decide
  count_le := by decide
  length_lt := by decide
  first_isCommand := rfl
  storable := by decide
  complete := .inl rfl

/-- A tip text whose font reads as a command of a group that starts one word before. -/
def blankTip : StoredTip where
  font := "\x00\x00\x00\x00"
  text := none
  fontStorable := by decide
  textStorable := by simp

/-- Neither a group of type 0 nor a tip text always ends the padding before it. -/
theorem not_forall_skipPadding_stops :
    ¬(∀ (b : Buffer) (pos k : Nat) (g : CountedGroup), g.eventType = 0 →
      b.HasAt pos (Encode.zeroWords k ++ g.encode) →
        skipPadding b b.size pos = (pos + 4 * k, .ok ())) ∧
    ¬(∀ (b : Buffer) (pos k : Nat) (t : StoredTip),
      b.HasAt pos (Encode.zeroWords k ++ Payload.encodeAll t.records) →
        skipPadding b b.size pos = (pos + 4 * k, .ok ())) := by
  constructor
  · intro h
    have hstop : (skipPadding nextGroup.encode.toArray nextGroup.encode.length 0).1 = 4 := by
      decide +kernel
    have hstated := h nextGroup.encode.toArray 0 0 nextGroup rfl (by unfold HasAt; decide +kernel)
    rw [List.size_toArray] at hstated
    rw [hstated] at hstop
    exact absurd hstop (by decide)
  · intro h
    have hstop : (skipPadding (Encode.zeroWords 1 ++ Payload.encodeAll blankTip.records).toArray
        (Encode.zeroWords 1 ++ Payload.encodeAll blankTip.records).length 0).1 = 0 := by
      decide +kernel
    have hstated := h (Encode.zeroWords 1 ++ Payload.encodeAll blankTip.records).toArray 0 1
      blankTip (by unfold HasAt; decide +kernel)
    rw [List.size_toArray] at hstated
    rw [hstated] at hstop
    exact absurd hstop (by decide)

end PointAndClick.EventGroup
