import PointAndClick.Proofs.Number.Rounding
import PointAndClick.Proofs.Play.Handover
import PointAndClick.Proofs.Play.Traces

/-!
# Every wait ends in time

A wait that begins ends later than the present, since no timer has an interval of less than a
millisecond and no pause of a list is counted that takes no time. So only the waits that there are
can end at one instant, and when time has passed, none is left that should have ended
(`Machine.now_lt_of_mem_advance`).
-/

set_option autoImplicit false

namespace PointAndClick

/-- The clock counts at least one millisecond for each wait that is not empty. -/
theorem Duration.one_le_of_onClock {milliseconds duration : Nat}
    (h : onClock milliseconds = .ok duration) (hpos : 1 ≤ milliseconds) : 1 ≤ duration := by
  unfold onClock at h
  split at h
  · cases h
    exact hpos
  · rename_i hlong
    have hthousand : 1000 ≤ milliseconds := Nat.le_trans (by decide) (Nat.le_of_not_lt hlong)
    split at h
    · nomatch h
    · rename_i seconds hseconds
      have hone := Binary64.den_le_num_of_ofQuotient hseconds (Nat.succ_pos 999) hthousand
      split at h
      · nomatch h
      · rename_i count hcount
        cases h
        have hmore : seconds.den ≤ 1000 * seconds.num.natAbs :=
          Nat.le_trans hone (Nat.le_mul_of_pos_left _ (Nat.succ_pos 999))
        exact Binary64.one_le_roundDiv count.den_pos
          (Binary64.den_le_num_of_ofQuotient hcount seconds.den_pos hmore)

/-! ## Timers -/

namespace Clockwork

/-- A timer that sleeps until a time slept until then before, or its wait began since. -/
theorem traces_asleep : Traces fun c _ c' =>
    c.now ≤ c'.now ∧ c'.timers.minInterval = c.timers.minInterval ∧
      (1 ≤ c.timers.minInterval → ∀ y ∈ c'.timers.timers, ∀ due order,
        y.phase = .asleep due order → c.now < due ∨
          ∃ x ∈ c.timers.timers, x.serial = y.serial ∧ x.phase = .asleep due order) where
  refl c := ⟨Nat.le_refl _, rfl, fun _ y hy _ _ hphase => .inr ⟨y, hy, rfl, hphase⟩⟩
  trans h h' := by
    obtain ⟨hnow, hmin, hasleep⟩ := h
    obtain ⟨hnow', hmin', hasleep'⟩ := h'
    refine ⟨Nat.le_trans hnow hnow', hmin'.trans hmin, fun hone z hz due order hphase => ?_⟩
    rcases hasleep' (hmin ▸ hone) z hz due order hphase with hlate | ⟨y, hy, hserial, hsame⟩
    · exact .inl (Nat.lt_of_le_of_lt hnow hlate)
    · rcases hasleep hone y hy due order hsame with hlate | ⟨x, hx, hserial', hsame'⟩
      · exact .inl hlate
      · exact .inr ⟨x, hx, hserial'.trans hserial, hsame'⟩
  beat {base c c' ticks} hsound hbeat := by
    have hwait (serial order : Nat) (hone : 1 ≤ c.timers.minInterval) (y : Timer)
        (hy : y ∈ (c.timers.beginWait serial c.now order).timers) (due place : Nat)
        (hphase : y.phase = .asleep due place) : c.now < due ∨
          ∃ x ∈ c.timers.timers, x.serial = y.serial ∧ x.phase = .asleep due place := by
      obtain ⟨x, hx, ⟨-, rfl⟩ | ⟨-, rfl⟩⟩ := TimerTable.mem_update hy
      · exact .inr ⟨y, hx, rfl, hphase⟩
      · have hclamped := hsound.apart.clamped x hx
        dsimp only at hphase
        split at hphase
        · rename_i duration hclock
          cases hphase
          have hpos := Duration.one_le_of_onClock hclock (by omega)
          exact .inl (by omega)
        · nomatch hphase
    have hother {serial : Nat} {change : Timer → Timer} (hchange : ∀ x due order,
        (change x).phase ≠ .asleep due order) (y : Timer)
        (hy : y ∈ (c.timers.update serial change).timers) (due place : Nat)
        (hphase : y.phase = .asleep due place) : c.now < due ∨
          ∃ x ∈ c.timers.timers, x.serial = y.serial ∧ x.phase = .asleep due place := by
      obtain ⟨x, hx, ⟨-, rfl⟩ | ⟨-, rfl⟩⟩ := TimerTable.mem_update hy
      · exact .inr ⟨y, hx, rfl, hphase⟩
      · exact absurd hphase (hchange x due place)
    cases hbeat with
    | change hlater =>
        refine ⟨Nat.le_refl _, hlater.minInterval, fun _ y hy due order hphase => ?_⟩
        rcases hlater.timers y hy with ⟨x, hx, hstays⟩ | ⟨-, hfresh⟩
        · rcases hstays.phase with hsame | ⟨-, hwoken⟩
          · exact .inr ⟨x, hx, hstays.serial.symm, hsame.symm.trans hphase⟩
          · rw [hwoken] at hphase
            nomatch hphase
        · rw [hfresh] at hphase
          nomatch hphase
    | pass hnow => exact ⟨hnow, rfl, fun _ y hy _ _ hphase => .inr ⟨y, hy, rfl, hphase⟩⟩
    | beginWait => exact ⟨Nat.le_refl _, rfl, hwait _ _⟩
    | finishTick => exact ⟨Nat.le_refl _, rfl, hwait _ _⟩
    | await => exact ⟨Nat.le_refl _, rfl, fun _ => hother fun _ _ _ => nofun⟩
    | comeDue => exact ⟨Nat.le_refl _, rfl, fun _ => hother fun _ _ _ => nofun⟩
    | call | grant | tick | finishCall =>
        exact ⟨Nat.le_refl _, rfl, fun _ y hy _ _ hphase => .inr ⟨y, hy, rfl, hphase⟩⟩

end Clockwork

namespace Machine

open Clockwork

variable {m m' : Machine} {asked : List Request} {d : Due}

/-! ## Pauses -/

/-- A pause that goes on did so before, or ends later than the time of the step. -/
theorem Hands.lasts (h : Hands m asked m') {r : Running} {wake : Nat × Nat}
    (hrunning : m'.running = some r) (hwake : r.wake = some wake) :
    m.now < wake.1 ∨ m.running = some r := by
  have hspends {owner : Owner} {steps : Nat} {m₁ : Machine} (hnow : m₁.now = m.now)
      (h : Spends owner steps m₁ m') : m.now < wake.1 := by
    cases h.outcome with
    | ended hnone => rw [hnone] at hrunning; nomatch hrunning
    | paused hsome _ hlater =>
        rw [hsome] at hrunning
        cases hrunning
        exact hnow ▸ hlater wake hwake
  cases h with
  | leaves halike => exact .inr (halike.running.symm.trans hrunning)
  | goesOn _ halike h => exact .inl (hspends halike.now h)
  | starts _ _ halike h => exact .inl (hspends halike.now h)

/-! ## Waits of a machine -/

/-- What is left of the waits: each that ends at the present at the latest was there before. -/
theorem dues_of_parts {time : Nat} {P : Due → Prop}
    (htimers : ∀ y ∈ m'.session.timers.timers, ∀ due order, y.phase = .asleep due order →
      time < due ∨ P ⟨due, order, .timer y.serial⟩)
    (hrunning : ∀ r due order, m'.running = some r → r.wake = some (due, order) →
      time < due ∨ P ⟨due, order, .running⟩) :
    ∀ e ∈ m'.dues, time < e.time ∨ P e := by
  rintro ⟨due, order, waiter⟩ he
  rcases mem_dues_iff.mp he with ⟨y, hy, hwaiter, hphase⟩ | ⟨r, hr, hwake, hwaiter⟩
  · obtain rfl : waiter = .timer y.serial := hwaiter
    exact htimers y hy due order hphase
  · obtain rfl : waiter = .running := hwaiter
    exact hrunning r due order hr hwake

theorem dues_take (h : m.Regular) (hmin : 1 ≤ m.session.timers.minInterval) {t : Turn}
    (ht : t ∈ m.session.turns) :
    ∀ e ∈ ((m.dropTurn t).take t).dues, m.now < e.time ∨ e ∈ m.dues := by
  have hbeats := beats_take h.sound.apart h.locks ht
  refine dues_of_parts (fun y hy due order hphase => ?_) fun r due order hr hwake => ?_
  · rcases (traces_asleep.beats h.sound hbeats).2.2 hmin y hy due order hphase with
      hlate | ⟨x, hx, hserial, hsame⟩
    · exact .inl hlate
    · exact .inr (mem_dues_iff.mpr (.inl ⟨x, hx, by rw [hserial], hsame⟩))
  · obtain ⟨asked, hhands⟩ := hands_take h.locks ht
    rcases hhands.lasts hr hwake with hlate | hbefore
    · exact .inl hlate
    · exact .inr (mem_dues_iff.mpr (.inr ⟨r, hbefore, hwake, rfl⟩))

theorem Regular.pass (h : m.Regular) {time : Nat} (hnow : m.now ≤ time) :
    Regular { m with now := time } := by
  have hadmits : m.Admits (.pass time) := hnow
  exact h.move hadmits

/-- A timer that comes due does not sleep any more, and the others sleep on. -/
theorem asleep_tick (h : m.Regular) (hmin : 1 ≤ m.session.timers.minInterval) {x : Timer}
    (hx : x ∈ m.session.timers.timers) (hready : x.IsReady m.now) {y : Timer}
    (hy : y ∈ (m.tick x.serial).session.timers.timers) {due order : Nat}
    (hphase : y.phase = .asleep due order) :
    m.now < due ∨ y.serial ≠ x.serial ∧
      ∃ z ∈ m.session.timers.timers, z.serial = y.serial ∧ z.phase = .asleep due order := by
  have hdue : Beat m.session.timers.nextSerial m.clockwork []
      { (m.tickCall x.serial).1.clockwork with
        queue := (m.tickCall x.serial).1.queue ++ [x.call] } :=
    .comeDue hx (h.sound.apart.below x hx) hready
  rw [tick_eq_request (h.sound.apart.bySerial?_eq_some hx)] at hy
  rcases (traces_asleep.beats (h.sound.beat hdue) (beats_request x.call)).2.2 hmin y hy due order
    hphase with hlate | ⟨z, hz, hserial, hsame⟩
  · exact .inl hlate
  · obtain ⟨z', hz', ⟨hother, rfl⟩ | ⟨-, rfl⟩⟩ := TimerTable.mem_update hz
    · exact .inr ⟨hserial ▸ hother, z, hz', hserial, hsame⟩
    · nomatch hsame

/-- A timer whose wait ends does not sleep any more, and the others sleep on. -/
theorem asleep_wake (h : m.Regular) (hmin : 1 ≤ m.session.timers.minInterval) {x : Timer}
    (hx : x ∈ m.session.timers.timers) (hwaiter : d.waiter = .timer x.serial)
    (hasleep : x.phase = .asleep d.time d.order) {y : Timer}
    (hy : y ∈ (m.wake d).session.timers.timers) {due order : Nat}
    (hphase : y.phase = .asleep due order) :
    max m.now d.time < due ∨ y.serial ≠ x.serial ∧
      ∃ z ∈ m.session.timers.timers, z.serial = y.serial ∧ z.phase = .asleep due order := by
  have hpassed : Regular { m with now := max m.now d.time } := h.pass (Nat.le_max_left _ _)
  unfold wake at hy
  rw [hwaiter] at hy
  dsimp only at hy
  split at hy
  · obtain ⟨z, hz, ⟨hother, rfl⟩ | ⟨-, rfl⟩⟩ := TimerTable.mem_update hy
    · exact .inr ⟨hother, y, hz, rfl, hphase⟩
    · nomatch hphase
  · exact asleep_tick hpassed hmin hx (.inr ⟨_, _, hasleep, Nat.le_max_right _ _⟩) hy hphase

/-- Once a wait has ended, only others are left of those that end at this time at the latest. -/
theorem dues_wake (h : m.Regular) (hmin : 1 ≤ m.session.timers.minInterval) (hd : d ∈ m.dues) :
    ∀ e ∈ (m.wake d).dues, max m.now d.time < e.time ∨ e ∈ m.dues ∧ e ≠ d := by
  rcases mem_dues_iff.mp hd with ⟨x, hx, hwaiter, hasleep⟩ | ⟨r, hrunning, -, hwaiter⟩
  · refine dues_of_parts (fun y hy due order hphase => ?_) fun r due order hr hwake => ?_
    · rcases asleep_wake h hmin hx hwaiter hasleep hy hphase with
        hlate | ⟨hother, z, hz, hserial, hsame⟩
      · exact .inl hlate
      · refine .inr ⟨mem_dues_iff.mpr (.inl ⟨z, hz, by rw [hserial], hsame⟩), fun heq => hother ?_⟩
        rw [← heq] at hwaiter
        exact Waiter.timer.inj hwaiter
    · obtain ⟨asked, hhands⟩ := hands_wake (m := m) d
      rcases hhands.lasts hr hwake with hlate | hbefore
      · exact .inl hlate
      · refine .inr ⟨mem_dues_iff.mpr (.inr ⟨r, hbefore, hwake, rfl⟩), fun heq => ?_⟩
        rw [← heq] at hwaiter
        nomatch hwaiter
  · have hpassed : Regular { m with now := max m.now d.time } := h.pass (Nat.le_max_left _ _)
    have hgoOn : m.wake d = goOn { m with now := max m.now d.time } := by
      unfold wake
      rw [hwaiter]
    rw [hgoOn]
    refine dues_of_parts (fun y hy due order hphase => ?_) fun r' due order hr' hwake' => ?_
    · rcases (traces_asleep.beats hpassed.sound beats_goOn).2.2 hmin y hy due order hphase with
        hlate | ⟨x, hx, hserial, hsame⟩
      · exact .inl hlate
      · refine .inr ⟨mem_dues_iff.mpr (.inl ⟨x, hx, by rw [hserial], hsame⟩), fun heq => ?_⟩
        rw [← heq] at hwaiter
        nomatch hwaiter
    · cases (spends_goOn (m := { m with now := max m.now d.time }) hrunning).outcome with
      | ended hnone =>
          rw [hnone] at hr'
          nomatch hr'
      | paused hsome _ hlater =>
          rw [hsome] at hr'
          cases hr'
          exact .inl (hlater _ hwake')

/-! ## Time that passes -/

/-- No timer of a machine has an interval of no time. -/
structure Patient (m : Machine) : Prop where
  regular : m.Regular
  slow : 1 ≤ m.session.timers.minInterval

theorem Patient.move (h : m.Patient) {move : Move} (hadmits : m.Admits move) :
    (m.move move).Patient := by
  refine ⟨h.regular.move hadmits, ?_⟩
  rw [show (m.move move).session.timers.minInterval = _ from
    (traces_serials.beats h.regular.sound (h.regular.beats hadmits)).2.1]
  exact h.slow

theorem passes_schedule : schedule.Passes (·.now) Patient where
  take m h := by
    suffices hboth : m.takeFirst.Patient ∧ ∀ e ∈ m.takeFirst.dues, m.now < e.time ∨ e ∈ m.dues from
      ⟨hboth.1, takeFirst_now, hboth.2⟩
    rcases takeFirst_cases m with ⟨-, hsame⟩ | ⟨t, ht, htake⟩
    · rw [hsame]
      exact ⟨h, fun e he => .inr he⟩
    · rw [htake]
      have hadmits : m.Admits (.turn t) := trivial
      exact ⟨move_turn ht ▸ h.move hadmits, dues_take h.regular h.slow ht⟩
  wake m d h hd := by
    have hadmits : m.Admits (.wake d) := hd
    exact ⟨h.move hadmits, wake_now d, dues_wake h.regular h.slow hd⟩

/-- **No wait is passed over.** Once time has passed, each wait that is left ends later. -/
theorem now_lt_of_mem_advance (h : m.Patient) (duration : Nat) :
    ∀ d ∈ (m.advance duration).dues, (m.advance duration).now < d.time :=
  passes_schedule.lt_of_mem_passUntil h

end Machine

end PointAndClick
