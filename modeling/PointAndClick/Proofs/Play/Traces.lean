import PointAndClick.Proofs.Play.Ledger
import PointAndClick.Proofs.Play.Standing

/-!
# Traces of ticks

A property of two clockworks and the ticks that begin between them holds of whole runs if it holds
of every beat (`Clockwork.Traces`, `Clockwork.Traces.run`). Five such properties are here: how one
timer stands; that a timer that is no longer there has no tick; that a call that waits is not
forgotten; which serial numbers the ticks have; and what is told of the ticks.
-/

set_option autoImplicit false

namespace PointAndClick

namespace Clockwork

variable {base : Nat} {c c' : Clockwork} {ticks : List Tick}

/-- A property of two clockworks and the ticks that begin between them that holds from end to end if
it holds of every beat. -/
structure Traces (P : Clockwork → List Tick → Clockwork → Prop) : Prop where
  refl (c : Clockwork) : P c [] c
  trans {c₁ c₂ c₃ : Clockwork} {ticks ticks' : List Tick} :
    P c₁ ticks c₂ → P c₂ ticks' c₃ → P c₁ (ticks ++ ticks') c₃
  beat {base : Nat} {c c' : Clockwork} {ticks : List Tick} :
    c.Sound base → Beat base c ticks c' → P c ticks c'

theorem Traces.beats {P : Clockwork → List Tick → Clockwork → Prop} (hP : Traces P)
    (hsound : c.Sound base) (hbeats : Beats base c ticks c') : P c ticks c' := by
  induction hbeats with
  | refl c => exact hP.refl c
  | cons hbeat _ ih => exact hP.trans (hP.beat hsound hbeat) (ih (hsound.beat hbeat))

/-- At most one tick begins in a beat. -/
theorem Beat.ticks_eq (hbeat : Beat base c ticks c') : ticks = [] ∨ ∃ tick, ticks = [tick] := by
  cases hbeat with
  | tick => exact .inr ⟨_, rfl⟩
  | _ => exact .inl rfl

/-- Without a tick a timer stands as before. -/
theorem Stands.no_tick {x : Timer} {count : Int} {last : Nat} (h : Stands x count last c) :
    Stands x (count + (([] : List Tick).length : Int)) (Tick.last last []) c := by
  show Stands x (count + 0) last c
  rw [Int.add_zero]
  exact h

/-- What becomes of a timer that stands somehow. -/
theorem traces_stands (x : Timer) : Traces fun c ticks c' => ∀ count last, Stands x count last c →
    x.Ticked count last (Tick.ofSerial x.serial ticks) ∧
      Stands x (count + (Tick.ofSerial x.serial ticks).length)
        (Tick.last last (Tick.ofSerial x.serial ticks)) c' where
  refl _ _ _ h := ⟨trivial, h.no_tick⟩
  trans {c₁ c₂ c₃ ticks ticks'} h h' count last hstands := by
    obtain ⟨hticked, hstands⟩ := h count last hstands
    obtain ⟨hticked', hstands'⟩ := h' _ _ hstands
    rw [Tick.ofSerial_append]
    refine ⟨Timer.ticked_append hticked hticked', ?_⟩
    rw [List.length_append, Int.natCast_add, ← Int.add_assoc, Tick.last, List.foldl_append]
    exact hstands'
  beat {base c c' ticks} hsound hbeat count last h := by
    rcases hbeat.ticks_eq with rfl | ⟨tick, rfl⟩
    · exact ⟨trivial, (h.beat_silent hsound hbeat).no_tick⟩
    · rcases h.beat_tick hsound hbeat with ⟨hserial, hticked, hstands⟩ | ⟨hserial, hstands⟩
      · have hown : Tick.ofSerial x.serial [tick] = [tick] :=
          List.filter_cons_of_pos (by simpa using hserial)
        rw [hown]
        exact ⟨hticked, hstands⟩
      · have hown : Tick.ofSerial x.serial [tick] = [] :=
          List.filter_cons_of_neg (by simpa using hserial)
        rw [hown]
        exact ⟨trivial, hstands.no_tick⟩

/-! ## Timers that are no longer there -/

/-- The timer of a serial number was stopped or replaced. -/
def Lacks (c : Clockwork) (serial : Nat) : Prop :=
  serial < c.timers.nextSerial ∧ ∀ y ∈ c.timers.timers, y.serial ≠ serial

theorem Lacks.update {serial : Nat} (h : c.Lacks serial) {changed : Nat} {change : Timer → Timer}
    (hchange : ∀ y, (change y).serial = y.serial) :
    Lacks { c with timers := c.timers.update changed change } serial := by
  refine ⟨h.1, fun y hy => ?_⟩
  obtain ⟨z, hz, ⟨-, rfl⟩ | ⟨-, rfl⟩⟩ := TimerTable.mem_update hy
  · exact h.2 y hz
  · rw [hchange]
    exact h.2 z hz

theorem Lacks.beat {serial : Nat} (h : c.Lacks serial) (hbeat : Beat base c ticks c') :
    Tick.ofSerial serial ticks = [] ∧ c'.Lacks serial := by
  cases hbeat with
  | change hlater =>
      refine ⟨rfl, Nat.lt_of_lt_of_le h.1 hlater.nextSerial, fun y hy hserial => ?_⟩
      rcases hlater.timers y hy with ⟨z, hz, hstays⟩ | ⟨hnew, -⟩
      · exact h.2 z hz (hstays.serial ▸ hserial)
      · rw [hserial] at hnew
        exact absurd h.1 (Nat.not_lt.mpr hnew)
  | tick hqueue hfree hwork hthere =>
      refine ⟨?_, h⟩
      refine List.filter_cons_of_neg fun hserial => hthere ?_
      refine TimerTable.bySerial?_eq_none_iff.mpr fun y hy => ?_
      rw [show _ = serial from of_decide_eq_true hserial]
      exact h.2 y hy
  | beginWait => exact ⟨rfl, h.update fun _ => rfl⟩
  | await => exact ⟨rfl, h.update fun _ => rfl⟩
  | comeDue => exact ⟨rfl, h.update fun _ => rfl⟩
  | finishTick => exact ⟨rfl, h.update fun _ => rfl⟩
  | pass | call | grant | finishCall => exact ⟨rfl, h⟩

theorem traces_lacks (serial : Nat) : Traces fun c ticks c' => c.Lacks serial →
    Tick.ofSerial serial ticks = [] ∧ c'.Lacks serial where
  refl _ h := ⟨rfl, h⟩
  trans h h' hlacks := by
    obtain ⟨hnone, hlacks⟩ := h hlacks
    obtain ⟨hnone', hlacks'⟩ := h' hlacks
    rw [Tick.ofSerial_append, hnone, hnone']
    exact ⟨rfl, hlacks'⟩
  beat _ hbeat h := h.beat hbeat

/-! ## Calls that wait -/

/-- A call for a tick that waits is still there after a beat, unless the tick begins or the timer is
not there. -/
theorem mem_queue_beat (hsound : c.Sound base) (hbeat : Beat base c ticks c') {r : Request}
    {timer : Timer} (hr : r ∈ c.queue) (hwork : r.work = .tick timer) :
    (∃ tick ∈ ticks, tick.timer = timer) ∨ r ∈ c'.queue ∨ c'.Lacks timer.serial := by
  cases hbeat with
  | @grant first rest hqueue hfree hnone =>
      rw [hqueue] at hr
      rcases List.mem_cons.mp hr with rfl | hrest
      · have howner := hsound.works r (hqueue ▸ List.mem_cons_self) timer hwork
        have hlt := hsound.callers r (hqueue ▸ List.mem_cons_self) _ howner
        refine .inr (.inr ⟨Nat.lt_of_lt_of_le hlt hsound.base_le, ?_⟩)
        exact TimerTable.bySerial?_eq_none_iff.mp (hnone timer hwork)
      · exact .inr (.inl hrest)
  | @tick first rest timer' hqueue hfree hwork' hthere =>
      rw [hqueue] at hr
      rcases List.mem_cons.mp hr with rfl | hrest
      · exact .inl ⟨_, List.mem_cons_self, Work.tick.inj (hwork'.symm.trans hwork)⟩
      · exact .inr (.inl hrest)
  | comeDue | call => exact .inr (.inl (List.mem_append_left _ hr))
  | _ => exact .inr (.inl hr)

theorem traces_delivers {r : Request} {timer : Timer} (hwork : r.work = .tick timer) :
    Traces fun c ticks c' => (c.Lacks timer.serial → c'.Lacks timer.serial) ∧
      (r ∈ c.queue →
        (∃ tick ∈ ticks, tick.timer = timer) ∨ r ∈ c'.queue ∨ c'.Lacks timer.serial) where
  refl _ := ⟨id, fun hr => .inr (.inl hr)⟩
  trans h h' := by
    refine ⟨fun hlacks => h'.1 (h.1 hlacks), fun hr => ?_⟩
    rcases h.2 hr with ⟨tick, htick, heq⟩ | hwaits | hlacks
    · exact .inl ⟨tick, List.mem_append_left _ htick, heq⟩
    · rcases h'.2 hwaits with ⟨tick, htick, heq⟩ | hlater
      · exact .inl ⟨tick, List.mem_append_right _ htick, heq⟩
      · exact .inr hlater
    · exact .inr (.inr (h'.1 hlacks))
  beat hsound hbeat :=
    ⟨fun hlacks => (hlacks.beat hbeat).2, fun hr => mem_queue_beat hsound hbeat hr hwork⟩

/-! ## Serial numbers, and what is told -/

theorem Beat.nextSerial_le (hbeat : Beat base c ticks c') :
    c.timers.nextSerial ≤ c'.timers.nextSerial ∧
      c'.timers.minInterval = c.timers.minInterval := by
  cases hbeat with
  | change hlater => exact ⟨hlater.nextSerial, hlater.minInterval⟩
  | _ => exact ⟨Nat.le_refl _, rfl⟩

/-- Only timers that started before tick. -/
theorem Sound.serial_lt (hsound : c.Sound base) (hbeat : Beat base c ticks c') :
    ∀ tick ∈ ticks, tick.timer.serial < base := by
  intro tick htick
  cases hbeat with
  | @tick r rest timer hqueue hfree hwork hthere =>
      rw [List.mem_singleton.mp htick]
      have hr : r ∈ c.queue := hqueue ▸ List.mem_cons_self
      exact hsound.callers r hr timer.serial (hsound.works r hr timer hwork)
  | _ => nomatch htick

theorem Sound.serial_lt_beats (hsound : c.Sound base) (hbeats : Beats base c ticks c') :
    ∀ tick ∈ ticks, tick.timer.serial < base := by
  induction hbeats with
  | refl => exact fun _ htick => nomatch htick
  | cons hbeat _ ih =>
      intro tick htick
      rcases List.mem_append.mp htick with hfirst | hrest
      · exact hsound.serial_lt hbeat tick hfirst
      · exact ih (hsound.beat hbeat) tick hrest

theorem traces_serials : Traces fun c ticks c' =>
    c.timers.nextSerial ≤ c'.timers.nextSerial ∧
      c'.timers.minInterval = c.timers.minInterval ∧
      ∀ tick ∈ ticks, tick.timer.serial < c'.timers.nextSerial where
  refl _ := ⟨Nat.le_refl _, rfl, fun _ htick => nomatch htick⟩
  trans h h' := by
    refine ⟨Nat.le_trans h.1 h'.1, h'.2.1.trans h.2.1, fun tick htick => ?_⟩
    rcases List.mem_append.mp htick with hfirst | hrest
    · exact Nat.lt_of_lt_of_le (h.2.2 tick hfirst) h'.1
    · exact h'.2.2 tick hrest
  beat hsound hbeat := by
    obtain ⟨hle, hmin⟩ := hbeat.nextSerial_le
    refine ⟨hle, hmin, fun tick htick => ?_⟩
    exact Nat.lt_of_lt_of_le (hsound.serial_lt hbeat tick htick) (Nat.le_trans hsound.base_le hle)

/-- What is told of ticks is told of those that begin, in that order. -/
theorem traces_told : Traces fun c ticks c' =>
    c'.records = c.records ∧ (c.records = true → c'.told = c.told ++ ticks.map Tick.entry) where
  refl c := ⟨rfl, fun _ => (List.append_nil c.told).symm⟩
  trans h h' := by
    refine ⟨h'.1.trans h.1, fun hrecords => ?_⟩
    rw [h'.2 (h.1.trans hrecords), h.2 hrecords, List.map_append, List.append_assoc]
  beat {base c c' ticks} _ hbeat := by
    cases hbeat with
    | tick => exact ⟨rfl, fun hrecords => congrArg (c.told ++ ·) (if_pos hrecords)⟩
    | _ => exact ⟨rfl, fun _ => (List.append_nil c.told).symm⟩

end Clockwork

/-! ## Runs -/

namespace Machine

open Clockwork

variable {m : Machine} {moves : List Move}

/-- What holds of every machine between its moves. -/
structure Regular (m : Machine) : Prop where
  fair : ∃ l : Ledger, l.Fair ∧ l.machine = m
  sound : m.clockwork.Sound m.session.timers.nextSerial

theorem Regular.locks (h : m.Regular) : m.Locks := by
  obtain ⟨l, hfair, rfl⟩ := h.fair
  exact hfair.locks

theorem Regular.beats (h : m.Regular) {move : Move} (hadmits : m.Admits move) :
    Beats m.session.timers.nextSerial m.clockwork (tickAt (m.tick? move) (m.move move).now)
      (m.move move).clockwork := beats_move h.sound.apart h.locks hadmits

theorem Regular.move (h : m.Regular) {move : Move} (hadmits : m.Admits move) :
    (m.move move).Regular where
  fair := by
    obtain ⟨l, hfair, rfl⟩ := h.fair
    exact ⟨l.move move, hfair.move move, Ledger.machine_move hfair move⟩
  sound := (h.sound.beats (h.beats hadmits)).rebase

theorem Regular.after (h : m.Regular) (htimely : m.Timely moves) : (m.after moves).Regular := by
  induction moves generalizing m with
  | nil => exact h
  | cons move moves ih => exact ih (h.move htimely.1) htimely.2

theorem regular_ofProject (p : Project) (presentation : Presentation) (minInterval : Int) :
    (ofSession (Session.ofProject p presentation minInterval)).Regular where
  fair := ⟨_, Ledger.fair_ofSession rfl rfl, rfl⟩
  sound :=
    { apart := TimerTable.apart_of_nil rfl
      base_le := Nat.le_refl _
      fresh := fun _ hx => nomatch hx
      callers := fun _ hr => nomatch hr
      holder := fun _ hholder => nomatch hholder
      works := fun _ hr => nomatch hr }

end Machine

/-- What holds of every beat holds of every run. -/
theorem Clockwork.Traces.run {P : Clockwork → List Tick → Clockwork → Prop} (hP : Traces P)
    {m : Machine} {moves : List Move} (h : m.Regular) (htimely : m.Timely moves) :
    P m.clockwork (m.ticks moves) (m.after moves).clockwork := by
  induction moves generalizing m with
  | nil => exact hP.refl _
  | cons move moves ih =>
      exact hP.trans (hP.beats h.sound (h.beats htimely.1)) (ih (h.move htimely.1) htimely.2)

end PointAndClick
