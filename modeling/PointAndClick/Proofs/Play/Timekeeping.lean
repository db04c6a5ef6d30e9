import Mathlib.Data.List.Induction
import PointAndClick.Proofs.Play.Traces

/-!
# Timekeeping

The ticks of a timer, from its start on, count up one by one, and at least its interval passes
before each; each time that it comes due its tick begins as soon as it gets the lock, unless the
timer is stopped before; and once it is stopped or replaced no tick of it begins
(`Machine.timekeeping`). So it is whatever lists and users do meanwhile: they may start timers,
stop, pause and resume them, or put saved ones in their place, and a timer may do so in its own
tick.

The interval is the one that the clock counts. It counts fewer milliseconds than there are for some
intervals that are astronomically long (`Machine.not_forall_le_time`), and never for others.
-/

set_option autoImplicit false

namespace PointAndClick

namespace Timer

variable {x : Timer} {count : Int} {time later : Nat} {ticks : List Tick}

/-- Intervals of less than some 71000 years are counted exactly. -/
theorem Rests.add_le (h : x.Rests time later) (hshort : x.interval < Duration.exactBelow) :
    time + x.interval ≤ later := by
  obtain ⟨duration, hclock, hle⟩ := h
  have hexact : Duration.onClock x.interval = .ok x.interval := if_pos hshort
  rw [hexact] at hclock
  cases hclock
  exact hle

theorem Ticked.isChain (h : x.Ticked count time ticks) (hshort : x.interval < Duration.exactBelow) :
    (time :: ticks.map (·.time)).IsChain fun time later => time + x.interval ≤ later := by
  induction ticks generalizing count time with
  | nil => exact List.IsChain.singleton _
  | cons tick ticks ih =>
      obtain ⟨-, -, hrests, hticks⟩ := h
      exact List.isChain_cons_cons.mpr ⟨hrests.add_le hshort, ih hticks⟩

end Timer

namespace Machine

open Clockwork

variable {m : Machine} {x : Timer} {moves : List Move}

/-- A timer starts in a move. -/
structure Starts (m : Machine) (start : Move) (x : Timer) : Prop where
  new : m.session.timers.nextSerial ≤ x.serial
  there : x ∈ (m.move start).session.timers.timers

/-- A timer was stopped, or another has taken its identifier. -/
def HasStopped (m : Machine) (x : Timer) : Prop :=
  ∀ y, m.session.timers.get? x.id = some y → y.serial ≠ x.serial

/-- What comes of a timer that has just started, in the moves that follow. -/
structure Keeps (m : Machine) (x : Timer) (moves : List Move) : Prop where
  /-- Its ticks count on one by one, and there is at least its interval before each. -/
  ticked : x.Ticked x.tickCount m.now (m.ticksOf x.serial moves)
  /-- An interval of less than some 71000 years is counted exactly. -/
  spaced : x.interval < Duration.exactBelow →
    (m.now :: (m.ticksOf x.serial moves).map (·.time)).IsChain fun time later =>
      time + x.interval ≤ later
  /-- As often as it came due, a tick of it has begun or waits for the lock. -/
  counted : ∀ y, (m.after moves).session.timers.get? x.id = some y → y.serial = x.serial →
    y.tickCount = x.tickCount + (m.ticksOf x.serial moves).length +
      ((m.after moves).callsOf x.serial).length
  /-- A tick that waits for the lock begins, unless it still waits or the timer was stopped. -/
  delivered : ∀ before after, moves = before ++ after →
    ∀ r ∈ (m.after before).callsOf x.serial,
      (∃ tick ∈ (m.after before).ticksOf x.serial after, r.work = .tick tick.timer) ∨
        r ∈ (m.after moves).queue ∨ (m.after moves).HasStopped x
  /-- While something waits for the lock, it is held or is being handed on. -/
  handedOn : (m.after moves).queue ≠ [] →
    (m.after moves).running.isSome ∨ .grant ∈ (m.after moves).session.turns
  /-- Once it is stopped or replaced no tick of it begins. -/
  stopped : ∀ before after, moves = before ++ after → (m.after before).HasStopped x →
    (m.after before).ticksOf x.serial after = []

/-! ## A timer that starts -/

/-- A timer that starts in a move has not yet begun to wait. -/
theorem Starts.stands (h : m.Regular) {start : Move} (hadmits : m.Admits start)
    (hstarts : m.Starts start x) :
    Stands x x.tickCount (m.move start).now (m.move start).clockwork := by
  have hsound := h.sound.beats (h.beats hadmits)
  refine ⟨Nat.le_refl _, hsound.apart.below x hstarts.there, fun y hy hserial => ?_⟩
  obtain rfl := hsound.apart.eq_of_serial hy hstarts.there hserial
  refine ⟨rfl, rfl, .waits ?_ (fun hholder => ?_) rfl ?_⟩
  -- those that ask for the lock started before
  · refine List.filter_eq_nil_iff.mpr fun r hr howner => ?_
    have hlt := hsound.callers r hr y.serial (of_decide_eq_true howner)
    exact absurd hlt (Nat.not_lt.mpr hstarts.new)
  · exact absurd (hsound.holder y.serial hholder) (Nat.not_lt.mpr hstarts.new)
  · unfold Timer.HasRested
    rw [hsound.fresh y hy hstarts.new]
    trivial

theorem lacks_of_hasStopped {count : Int} {last : Nat} (h : m.Regular)
    (hstands : Stands x count last m.clockwork) (hstopped : m.HasStopped x) :
    m.clockwork.Lacks x.serial := by
  refine ⟨hstands.known, fun y hy hserial => ?_⟩
  obtain ⟨hid, -, -⟩ := hstands.stage y hy hserial
  have hget : m.session.timers.get? x.id = some y := hid ▸ h.sound.apart.get?_eq_some hy
  exact hstopped y hget hserial

theorem hasStopped_of_lacks (h : m.clockwork.Lacks x.serial) : m.HasStopped x :=
  fun y hget => h.2 y (TimerTable.mem_of_get? hget).1

/-- A call of a timer that is there is for its next tick. -/
theorem work_of_mem_callsOf {count : Int} {last : Nat} {y : Timer}
    (hy : y ∈ m.session.timers.timers) (hserial : y.serial = x.serial)
    (hstands : Stands x count last m.clockwork) {r : Request}
    (hr : r ∈ m.callsOf x.serial) : ∃ timer, r.work = .tick timer ∧ timer.serial = x.serial := by
  obtain ⟨-, -, hstage⟩ := hstands.stage y hy hserial
  have hcalls : m.clockwork.callsOf x.serial = m.callsOf x.serial := rfl
  rw [← hcalls] at hr
  cases hstage with
  | waits hnil => rw [hnil] at hr; nomatch hr
  | ticks hnil => rw [hnil] at hr; nomatch hr
  | @due timer hone _ hsame =>
      rw [hone] at hr
      rw [List.mem_singleton.mp hr]
      exact ⟨timer, rfl, hsame.trans hserial⟩

/-- A timer has counted the ticks of it that began and the one that waits for the lock. -/
theorem tickCount_of_stands {count : Int} {last : Nat} {y : Timer}
    (hget : m.session.timers.get? x.id = some y) (hserial : y.serial = x.serial)
    (hstands : Stands x count last m.clockwork) :
    y.tickCount = count + (m.callsOf x.serial).length := by
  obtain ⟨hy, -⟩ := TimerTable.mem_of_get? hget
  obtain ⟨-, -, hstage⟩ := hstands.stage y hy hserial
  have hcalls : m.clockwork.callsOf x.serial = m.callsOf x.serial := rfl
  rw [← hcalls]
  cases hstage with
  | waits hnil _ hcount => rw [hcount, hnil]; exact (Int.add_zero _).symm
  | due hone _ _ _ hcount => rw [hcount, hone]; rfl
  | ticks hnil _ hcount => rw [hcount, hnil]; exact (Int.add_zero _).symm

/-- A call of a timer that waits for the lock begins its tick in the moves to come, unless it still
waits after them or the timer was stopped. -/
theorem tick_or_waits_or_hasStopped (h : m.Regular) (htimely : m.Timely moves)
    {count : Int} {last : Nat} (hstands : Stands x count last m.clockwork) {r : Request}
    (hr : r ∈ m.callsOf x.serial) :
    (∃ tick ∈ m.ticksOf x.serial moves, r.work = .tick tick.timer) ∨
      r ∈ (m.after moves).queue ∨ (m.after moves).HasStopped x := by
  by_cases hstopped : m.HasStopped x
  · have hlacks := lacks_of_hasStopped h hstands hstopped
    exact .inr (.inr (hasStopped_of_lacks ((traces_lacks x.serial).run h htimely hlacks).2))
  · obtain ⟨y, hget, hserial⟩ :
        ∃ y, m.session.timers.get? x.id = some y ∧ y.serial = x.serial := by
      simpa [HasStopped] using hstopped
    obtain ⟨timer, hwork, htimer⟩ :=
      work_of_mem_callsOf (TimerTable.mem_of_get? hget).1 hserial hstands hr
    have hqueue : r ∈ m.queue := List.mem_of_mem_filter hr
    rcases ((traces_delivers hwork).run h htimely).2 hqueue with
      ⟨tick, htick, rfl⟩ | hwaits | hlacks
    · exact .inl ⟨tick, List.mem_filter.mpr ⟨htick, by simpa using htimer⟩, hwork⟩
    · exact .inr (.inl hwaits)
    · rw [htimer] at hlacks
      exact .inr (.inr (hasStopped_of_lacks hlacks))

theorem keeps_of_stands (h : m.Regular) (htimely : m.Timely moves)
    (hstands : Stands x x.tickCount m.now m.clockwork) : m.Keeps x moves := by
  have hregular := h.after htimely
  obtain ⟨hticked, hend⟩ := (traces_stands x).run h htimely _ _ hstands
  -- how it stands in between
  have hbetween {before after : List Move} (hmoves : moves = before ++ after) :
      (m.after before).Regular ∧ (m.after before).Timely after ∧
        (m.after before).after after = m.after moves ∧
        ∃ count last, Stands x count last (m.after before).clockwork := by
    rw [hmoves] at htimely
    obtain ⟨hbefore, hafter⟩ := timely_append.mp htimely
    refine ⟨h.after hbefore, hafter, by rw [hmoves, after_append], ?_⟩
    exact ⟨_, _, ((traces_stands x).run h hbefore _ _ hstands).2⟩
  refine ⟨hticked, hticked.isChain, fun y hget hserial => ?_, fun before after hmoves r hr => ?_,
    hregular.locks.handedOn, fun before after hmoves hstopped => ?_⟩
  · exact tickCount_of_stands hget hserial hend
  · obtain ⟨hreg, hafter, hsame, count, last, hstands'⟩ := hbetween hmoves
    rw [← hsame]
    exact tick_or_waits_or_hasStopped hreg hafter hstands' hr
  · obtain ⟨hreg, hafter, -, count, last, hstands'⟩ := hbetween hmoves
    exact ((traces_lacks x.serial).run hreg hafter (lacks_of_hasStopped hreg hstands' hstopped)).1

/-! ## All ticks -/

/-- A timer that is there started in one of the moves. -/
theorem exists_starts (h : m.Regular) (hempty : m.session.timers.timers = [])
    (htimely : m.Timely moves) {y : Timer} (hy : y ∈ (m.after moves).session.timers.timers) :
    ∃ before start after x, moves = before ++ start :: after ∧ (m.after before).Starts start x ∧
      x.serial = y.serial := by
  induction moves using List.reverseRecOn generalizing y with
  | nil =>
      have hnone : y ∈ m.session.timers.timers := hy
      rw [hempty] at hnone
      nomatch hnone
  | append_singleton moves last ih =>
      obtain ⟨hmoves, hlast, -⟩ := timely_append.mp htimely
      have hregular := h.after hmoves
      rw [after_append] at hy
      by_cases hnew : (m.after moves).session.timers.nextSerial ≤ y.serial
      · exact ⟨moves, last, [], y, rfl, ⟨hnew, hy⟩, rfl⟩
      -- it was there before the last move, since a timer that is gone does not come back
      by_cases hthere : ∃ z ∈ (m.after moves).session.timers.timers, z.serial = y.serial
      · obtain ⟨z, hz, hserial⟩ := hthere
        obtain ⟨before, start, after, x, rfl, hstarts, hsame⟩ := ih hmoves hz
        exact ⟨before, start, after ++ [last], x, by simp, hstarts, hsame.trans hserial⟩
      · have hlacks : (m.after moves).clockwork.Lacks y.serial :=
          ⟨Nat.lt_of_not_le hnew, fun z hz hserial => hthere ⟨z, hz, hserial⟩⟩
        have hgone := ((traces_lacks y.serial).beats hregular.sound (hregular.beats hlast) hlacks).2
        exact absurd rfl (hgone.2 y hy)

/-- The timer of a tick is there when the move comes in which the tick begins. -/
theorem exists_timer (h : m.Regular) {move : Move} (hadmits : m.Admits move) {tick : Tick}
    (htick : tick ∈ m.ticks [move]) :
    ∃ y ∈ m.session.timers.timers, y.serial = tick.timer.serial := by
  have hticks : m.ticks [move] = tickAt (m.tick? move) (m.move move).now := List.append_nil _
  rw [hticks] at htick
  have hbeats := h.beats hadmits
  have hlt := h.sound.serial_lt_beats hbeats tick htick
  by_contra hnone
  have hlacks : m.clockwork.Lacks tick.timer.serial :=
    ⟨hlt, fun y hy hserial => hnone ⟨y, hy, hserial⟩⟩
  have hempty := ((traces_lacks _).beats h.sound hbeats hlacks).1
  have hmem : tick ∈ Tick.ofSerial tick.timer.serial (tickAt (m.tick? move) (m.move move).now) :=
    List.mem_filter.mpr ⟨htick, by simp⟩
  rw [hempty] at hmem
  nomatch hmem

/-- Every tick is one of a timer that started before. -/
theorem exists_starts_of_tick (h : m.Regular) (hempty : m.session.timers.timers = [])
    (htimely : m.Timely moves) {tick : Tick} (htick : tick ∈ m.ticks moves) :
    ∃ before start after x, moves = before ++ start :: after ∧ (m.after before).Starts start x ∧
      tick ∈ ((m.after before).move start).ticksOf x.serial after := by
  induction moves using List.reverseRecOn with
  | nil => nomatch htick
  | append_singleton moves last ih =>
      obtain ⟨hmoves, hlast, -⟩ := timely_append.mp htimely
      rw [ticks_append] at htick
      rcases List.mem_append.mp htick with hearlier | hnow
      · obtain ⟨before, start, after, x, rfl, hstarts, hmem⟩ := ih hmoves hearlier
        refine ⟨before, start, after ++ [last], x, by simp, hstarts, ?_⟩
        rw [ticksOf_append]
        exact List.mem_append_left _ hmem
      · obtain ⟨y, hy, hserial⟩ := exists_timer (h.after hmoves) hlast hnow
        obtain ⟨before, start, after, x, rfl, hstarts, hsame⟩ := exists_starts h hempty hmoves hy
        refine ⟨before, start, after ++ [last], x, by simp, hstarts, ?_⟩
        rw [ticksOf_append]
        have hafter : ((m.after before).move start).after after =
            m.after (before ++ start :: after) := (after_append m before (start :: after)).symm
        rw [hafter]
        refine List.mem_append_right _ (List.mem_filter.mpr ⟨hnow, ?_⟩)
        simpa using (hsame.trans hserial).symm

/-- No tick of a timer begins up to the move in which it starts. -/
theorem Starts.no_tick (h : m.Regular) {before : List Move} {start : Move}
    (htimely : m.Timely (before ++ [start])) (hstarts : (m.after before).Starts start x) :
    m.ticksOf x.serial (before ++ [start]) = [] := by
  obtain ⟨hbefore, hstart, -⟩ := timely_append.mp htimely
  have hregular := h.after hbefore
  refine List.filter_eq_nil_iff.mpr fun tick htick hserial => ?_
  rw [ticks_append] at htick
  have hlt : tick.timer.serial < (m.after before).session.timers.nextSerial := by
    rcases List.mem_append.mp htick with hearlier | hnow
    · exact (traces_serials.run h hbefore).2.2 tick hearlier
    · have hticks : (m.after before).ticks [start] = tickAt ((m.after before).tick? start) _ :=
        List.append_nil _
      rw [hticks] at hnow
      exact hregular.sound.serial_lt_beats (hregular.beats hstart) tick hnow
  rw [show tick.timer.serial = x.serial from of_decide_eq_true hserial] at hlt
  exact absurd hlt (Nat.not_lt.mpr hstarts.new)

/-! ## Timekeeping -/

/-- **No tick is lost, made twice, out of order or after a stop.** Whatever moves a session makes,
each when it can come: every tick is one of a timer that started in one of the moves, every timer
keeps time from its start on, and what is told of ticks is told of these, in this order. -/
theorem timekeeping (p : Project) (presentation : Presentation) (minInterval : Int)
    (moves : List Move)
    (htimely : (ofSession (Session.ofProject p presentation minInterval)).Timely moves) :
    let m := ofSession (Session.ofProject p presentation minInterval)
    (∀ tick ∈ m.ticks moves, ∃ before start after x, moves = before ++ start :: after ∧
      (m.after before).Starts start x ∧
      tick ∈ ((m.after before).move start).ticksOf x.serial after) ∧
    (∀ before start after x, moves = before ++ start :: after → (m.after before).Starts start x →
      minInterval ≤ x.interval ∧ m.ticksOf x.serial (before ++ [start]) = [] ∧
        ((m.after before).move start).Keeps x after) ∧
    (presentation.records = true →
      (m.after moves).session.log.toList.filter (·.isTick) = (m.ticks moves).map Tick.entry) := by
  intro m
  have hregular : m.Regular := regular_ofProject p presentation minInterval
  refine ⟨fun tick htick => exists_starts_of_tick hregular rfl htimely htick, ?_,
    fun hrecords => ?_⟩
  · rintro before start after x rfl hstarts
    obtain ⟨hbefore, hstart, hafter⟩ := timely_append.mp htimely
    have hmid := hregular.after hbefore
    have hend := hmid.move hstart
    have hwhole : m.Timely (before ++ [start]) := timely_append.mpr ⟨hbefore, hstart, trivial⟩
    have hmin : ((m.after before).move start).session.timers.minInterval = minInterval := by
      have hrun := (traces_serials.run hregular hwhole).2.1
      rw [after_append] at hrun
      exact hrun
    refine ⟨?_, Starts.no_tick hregular hwhole hstarts,
      keeps_of_stands hend hafter (Starts.stands hmid hstart hstarts)⟩
    rw [← hmin]
    exact hend.sound.apart.clamped x hstarts.there
  · exact (traces_told.run hregular htimely).2 hrecords

/-- A list that starts a timer, which does nothing when it ticks. -/
def startOf (args : String) : Move := .act (.execute [{ verb := "TIMERSTART", args }])

/-- What happens to a timer that waits 20 milliseconds. Its first tick comes at once. The second one
comes due while a list pauses, and waits for the lock. For the third one, the timer is paused when
its wait is over, and resumed 20 milliseconds later. The fourth one comes due while another list
pauses, and the timer is stopped before it gets the lock. -/
def laps : List Move :=
  [.turn (.beginTimer 0), .wake ⟨20, 0, .timer 0⟩,
    .pass 30, .act (.execute [⟨"PAUSE", "30"⟩]), .wake ⟨40, 1, .timer 0⟩, .wake ⟨60, 2, .running⟩,
    .turn .grant,
    .act (.pauseTimers none), .wake ⟨80, 3, .timer 0⟩, .pass 100, .act (.resumeTimers none),
    .turn (.tickTimer 0),
    .pass 110, .act (.execute [⟨"PAUSE", "30"⟩]), .wake ⟨120, 4, .timer 0⟩,
    .act (.stopTimer "a"), .wake ⟨140, 5, .running⟩, .turn .grant]

theorem timekeeping_laps :
    let m := ofSession (Session.ofProject {} { pace := .timed } 16)
    let start := startOf "a 20 inc_var LAPS"
    let x : Timer :=
      { serial := 0, id := "a", interval := 20, commands := [⟨"INC_VAR", "LAPS"⟩] }
    m.Timely (start :: laps) ∧ m.Starts start x ∧
      (m.ticks (start :: laps)).map (fun tick => (tick.time, tick.timer.tickCount)) =
        [(20, 1), (60, 2), (100, 3)] ∧
      ((m.after (start :: laps.take 5)).callsOf 0).length = 1 ∧
      ((m.after (start :: laps.take 16)).callsOf 0).length = 1 ∧
      (m.after (start :: laps.take 16)).session.timers.get? "a" = none ∧
      (m.move start).Keeps x laps := by
  intro m start x
  have htimely : m.Timely (start :: laps) := by
    have hwake {m : Machine} {d : Due} (h : m.dues.elem d = true) : m.Admits (.wake d) :=
      List.mem_of_elem_eq_true h
    have hpass {m : Machine} {time : Nat} (h : m.now.ble time = true) : m.Admits (.pass time) :=
      Nat.le_of_ble_eq_true h
    refine ⟨trivial, trivial, hwake ?_, hpass ?_, trivial, hwake ?_, hwake ?_, trivial, trivial,
      hwake ?_, hpass ?_, trivial, trivial, hpass ?_, trivial, hwake ?_, trivial, hwake ?_, trivial,
      trivial⟩ <;> decide +kernel
  have hstarts : m.Starts start x := ⟨Nat.zero_le _, by decide +kernel⟩
  refine ⟨htimely, hstarts, by decide +kernel, by decide +kernel, by decide +kernel,
    by decide +kernel, ?_⟩
  exact ((timekeeping {} { pace := .timed } 16 _ htimely).2.1 [] _ _ x rfl hstarts).2.2

/-- The clock counts fewer milliseconds than there are for some intervals, so that a tick may begin
before its timer's interval has passed. -/
theorem not_forall_le_time :
    ¬∀ (p : Project) (presentation : Presentation) (minInterval : Int) (before : List Move)
      (start : Move) (after : List Move) (x : Timer),
      let m := ofSession (Session.ofProject p presentation minInterval)
      m.Timely (before ++ start :: after) → (m.after before).Starts start x →
      ∀ tick ∈ ((m.after before).move start).ticksOf x.serial after,
        ((m.after before).move start).now + x.interval ≤ tick.time := by
  intro h
  let m := ofSession (Session.ofProject {} {} 16)
  let start := startOf "a 100000000000000000001 rem"
  let after : List Move := [.turn (.beginTimer 0), .wake ⟨100000000000000000000, 0, .timer 0⟩]
  let x : Timer :=
    { serial := 0, id := "a", interval := 100000000000000000001, commands := [{ verb := "REM" }] }
  have htimely : m.Timely (start :: after) :=
    ⟨trivial, trivial, List.mem_of_elem_eq_true (by decide +kernel), trivial⟩
  have hstarts : m.Starts start x := ⟨Nat.zero_le _, by decide +kernel⟩
  have htick : ⟨{ x with phase := .ticking, tickCount := 1 }, 100000000000000000000⟩ ∈
      (m.move start).ticksOf x.serial after := by decide +kernel
  exact absurd (h {} {} 16 [] start after x htimely hstarts _ htick) (by decide +kernel)

end Machine

end PointAndClick
