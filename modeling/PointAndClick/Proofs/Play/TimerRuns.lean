import Mathlib.Logic.Relation
import PointAndClick.Play.TimerRun
import PointAndClick.Proofs.Play.Waits

/-!
# Runs of timers on their own

Ticks may overlap here, and each may wait and do to the timers what a user does. Yet between the
moves of a user nothing is left to do at the present instant, and no wait is overdue
(`TimerRun.quiet_after`): the rounds of the schedule suffice, as they do for a machine.

Of the turns it matters how many actions they have left (`TimerRun.pending_takeFirst`). What can
happen to the rest at one instant is a beat of its dial (`TimerRun.Beat`).
-/

set_option autoImplicit false

namespace PointAndClick

/-- Something that happens to timers on their own. -/
inductive TimerMove
  | perform (request : TimerRequest)
  | advance (duration : Nat)

namespace TimerRun

/-- What happens in a move. -/
def move (r : TimerRun) : TimerMove → TimerRun
  | .perform request => (r.perform request).1
  | .advance duration => r.advance duration

/-- What happens in some moves. -/
def after (r : TimerRun) (moves : List TimerMove) : TimerRun := moves.foldl move r

/-- Timers of which none has started. -/
def idle (minInterval : Int) (scripts : List (String × List TimerAction)) : TimerRun :=
  { timers := { minInterval }, scripts }

variable {r r' : TimerRun} {serial : Nat}

/-! ## Every instant ends -/

/-- The actions that can be done at the present instant at most. -/
def pending (r : TimerRun) : Nat :=
  (r.turns.map Turn.actions).sum + r.timers.weight r.readyActions

/-- No more than some actions have come to those that can be done. -/
structure Adds (r : TimerRun) (more : Nat) (r' : TimerRun) : Prop where
  scripts : r'.scripts = r.scripts
  pending : r'.pending ≤ r.pending + more

theorem adds_of_parts {more : Nat} (hscripts : r'.scripts = r.scripts)
    (hturns : (r'.turns.map Turn.actions).sum ≤ (r.turns.map Turn.actions).sum + more)
    (htimers : r'.timers.weight r.readyActions ≤ r.timers.weight r.readyActions) :
    Adds r more r' := by
  have hsame : r'.readyActions = r.readyActions := by
    funext x
    unfold readyActions scriptOf
    rw [hscripts]
  refine ⟨hscripts, ?_⟩
  unfold TimerRun.pending
  rw [hsame]
  omega

theorem Adds.refl (r : TimerRun) : Adds r 0 r := ⟨rfl, Nat.le_refl _⟩

theorem Adds.mono {more more' : Nat} (h : Adds r more r') (hle : more ≤ more') :
    Adds r more' r' :=
  ⟨h.scripts, Nat.le_trans h.pending (Nat.add_le_add_left hle _)⟩

theorem Adds.trans {r'' : TimerRun} {more more' : Nat} (h : Adds r more r')
    (h' : Adds r' more' r'') : Adds r (more + more') r'' := by
  refine ⟨h'.scripts.trans h.scripts, ?_⟩
  have hfirst := h.pending
  have hnext := h'.pending
  omega

theorem readyActions_stays (x y : Timer) (h : x.Stays y) : r.readyActions y ≤ r.readyActions x := by
  have hready : (y.phase = .awaiting ∨ y.phase = .woken) ↔
      (x.phase = .awaiting ∨ x.phase = .woken) := by
    rcases h.phase with hsame | ⟨hawaiting, hwoken⟩
    · rw [hsame]
    · simp [hawaiting, hwoken]
  unfold readyActions
  rw [if_congr hready rfl rfl, h.id]

theorem readyActions_fresh (x : Timer) (h : x.phase = .fresh) : r.readyActions x = 0 := by
  simp [readyActions, h]

theorem adds_addTurns (turns : List Turn) :
    Adds r (turns.map Turn.actions).sum (r.addTurns turns) := by
  refine adds_of_parts rfl (Nat.le_of_eq ?_) (Nat.le_refl _)
  unfold addTurns
  rw [List.map_append, List.sum_append]

/-- A request brings turns that have no actions of their own. -/
theorem adds_ask (request : TimerRequest) : Adds r 0 (r.ask request).1 := by
  have htimers {timers : TimerTable}
      (h : timers.weight r.readyActions ≤ r.timers.weight r.readyActions) :
      Adds r 0 { r with timers } := adds_of_parts rfl (Nat.le_refl _) h
  have hturns {r₁ : TimerRun} (h : Adds r 0 r₁) (turn : Nat → Turn)
      (hturn : ∀ serial, (turn serial).actions = 0) (serials : List Nat) :
      Adds r 0 (r₁.addTurns (serials.map turn)) := by
    refine (h.trans (adds_addTurns _)).mono (Nat.le_of_eq ?_)
    rw [Nat.zero_add, List.map_map, List.sum_eq_zero]
    intro n hn
    obtain ⟨serial, -, rfl⟩ := List.mem_map.mp hn
    exact hturn serial
  cases request with
  | start id interval lines tickCount =>
      unfold ask start
      dsimp only
      split
      · exact .refl r
      · split
        · exact htimers (TimerTable.weight_stop_le id)
        · exact hturns (htimers (TimerTable.weight_start_le readyActions_fresh id _ _ _))
            .beginTimer (fun _ => rfl) [_]
  | stop id => exact htimers (TimerTable.weight_stop_le id)
  | stopAll => exact htimers (Nat.zero_le _)
  | pause id => exact htimers (TimerTable.weight_pause_le readyActions_stays id)
  | resume id =>
      exact hturns (htimers (TimerTable.weight_resume_le readyActions_stays id)) .tickTimer
        (fun _ => rfl) _
  | restore entries =>
      exact hturns (htimers (TimerTable.weight_restore_le readyActions_stays readyActions_fresh
        entries)) .beginTimer (fun _ => rfl) _

theorem adds_beginWait (serial : Nat) : Adds r 0 (r.beginWait serial) := by
  refine adds_of_parts rfl (Nat.le_refl _) (TimerTable.weight_update_le fun x => ?_)
  refine Nat.le_trans (Nat.le_of_eq ?_) (Nat.zero_le _)
  unfold readyActions
  dsimp only
  split <;> exact if_neg (by simp)

/-- A tick has as many actions to do as are left of it. -/
theorem adds_act (id : String) (actions : List TimerAction) :
    Adds r actions.length (r.act serial id actions) := by
  have hends {r : TimerRun} {n : Nat} : Adds r n (r.beginWait serial) :=
    (adds_beginWait serial).mono (Nat.zero_le n)
  induction actions generalizing r with
  | nil => exact hends
  | cons action rest ih =>
      cases action with
      | sleep duration =>
          unfold act
          split
          · exact hends
          · exact (adds_addTurns _).mono (Nat.le_refl _)
          · exact adds_of_parts rfl (Nat.le_add_right _ _) (Nat.le_refl _)
      | fail message => exact hends
      | ask request =>
          have hask := adds_ask (r := r) request
          unfold act
          generalize r.ask request = step at hask
          obtain ⟨r₁, outcome⟩ := step
          cases outcome with
          | error e => exact (hask.trans (adds_beginWait serial)).mono (Nat.zero_le _)
          | ok reply =>
              refine (hask.trans ih).mono ?_
              rw [Nat.zero_add]
              exact Nat.le_succ _

/-- A timer that ticks is there and counts on. -/
theorem tick_eq_act {x : Timer} (h : r.timers.bySerial? serial = some x) :
    r.tick serial =
      { r with
        timers := r.timers.beginTick serial
        log := r.log.push (.tick r.now x.id (x.tickCount + 1)) }.act serial x.id
          (r.scriptOf x.id) := by
  have hfound : (r.timers.beginTick serial).bySerial? serial = some x.comeDue :=
    (TimerTable.bySerial?_update Timer.comeDue fun _ => rfl).trans
      (congrArg (Option.map Timer.comeDue) h)
  unfold tick
  dsimp only
  rw [hfound]
  rfl

/-- A timer that was resumed has its actions to do, and no more after them. -/
theorem pending_tick (h : r.isIn serial .woken = true) : (r.tick serial).pending < r.pending := by
  obtain ⟨x, hfound, hwoken⟩ : ∃ x, r.timers.bySerial? serial = some x ∧ x.phase = .woken := by
    simpa [isIn, Option.any_eq_true] using h
  obtain ⟨hx, hserial⟩ := TimerTable.mem_of_bySerial? hfound
  have hlighter : (r.timers.beginTick serial).weight r.readyActions + r.readyActions x ≤
      r.timers.weight r.readyActions :=
    TimerTable.weight_update_add_le hx hserial fun y => if_neg (by simp)
  have hready : r.readyActions x = (r.scriptOf x.id).length + 1 := if_pos (.inr hwoken)
  rw [tick_eq_act hfound]
  refine Nat.lt_of_le_of_lt (adds_act x.id (r.scriptOf x.id)).pending ?_
  unfold pending
  have hsame (log : Array TimerEvent) : readyActions { r with
      timers := r.timers.beginTick serial, log } = r.readyActions := rfl
  rw [hsame]
  dsimp only
  omega

/-- Each turn that leads to more uses up some of the actions that can be done. -/
theorem pending_takeFirst {t : Turn} {rest : List Turn} (h : r.turns = t :: rest) :
    r.takeFirst.pending < r.pending ∨
      r.takeFirst.pending ≤ r.pending ∧ r.takeFirst.turns = rest := by
  let r₁ : TimerRun := { r with turns := rest }
  have htake : r.takeFirst = r₁.take t := by
    unfold takeFirst
    rw [h]
  have hpending : r.pending = t.actions + r₁.pending := by
    unfold pending
    rw [h, List.map_cons, List.sum_cons, Nat.add_assoc]
    rfl
  rw [htake, hpending]
  cases t with
  | beginTimer serial =>
      refine .inr ?_
      simp only [take]
      split
      · have hadds := (adds_beginWait (r := r₁) serial).pending
        exact ⟨Nat.le_trans hadds (Nat.le_add_left _ _), rfl⟩
      · exact ⟨Nat.le_add_left _ _, rfl⟩
  | tickTimer serial =>
      simp only [take]
      split
      · rename_i hwoken
        exact .inl (Nat.lt_of_lt_of_le (pending_tick hwoken) (Nat.le_add_left _ _))
      · exact .inr ⟨Nat.le_add_left _ _, rfl⟩
  | goOn t =>
      refine .inl (Nat.lt_of_le_of_lt (adds_act t.id t.rest).pending ?_)
      have hsame (log : Array TimerEvent) : pending { r₁ with log } = r₁.pending := rfl
      have hactions : (Turn.goOn t).actions = t.rest.length + 1 := rfl
      rw [hsame]
      omega

theorem settles_schedule : schedule.Settles pending where
  le r := by
    have hsum : (r.turns.map Turn.actions ++ r.timers.timers.map r.readyActions).sum =
        r.pending := List.sum_append
    exact Nat.le_of_eq hsum.symm
  idle r h := by
    have hnil : r.turns = [] := List.length_eq_zero_iff.mp h
    show r.takeFirst = r
    unfold takeFirst
    rw [hnil]
  take r h := by
    obtain ⟨t, rest, hturns⟩ := List.exists_cons_of_ne_nil
      (fun hnil : r.turns = [] => h (List.length_eq_zero_iff.mpr hnil))
    rcases pending_takeFirst hturns with hless | ⟨hle, hrest⟩
    · exact .inl hless
    · refine .inr ⟨hle, ?_⟩
      show r.takeFirst.turns.length + 1 = r.turns.length
      rw [hrest, hturns, List.length_cons]

/-- All turns of the present instant are taken, however many ticks start and resume timers. -/
theorem turns_settle (r : TimerRun) : (schedule.settle r).turns = [] :=
  List.length_eq_zero_iff.mp (settles_schedule.turns_settle r)

/-! ## Beats -/

/-- A tick is told of. -/
def isTick : TimerEvent → Bool
  | .tick .. => true
  | .woke .. => false

/-- What the waits and the ticks of timers depend on, and the ticks that were told of. -/
structure Dial where
  timers : TimerTable
  sleeping : List (Nat × Nat × OpenTick)
  now : Nat
  told : List TimerEvent

/-- What can be seen on the dial. -/
def dial (r : TimerRun) : Dial where
  timers := r.timers
  sleeping := r.sleeping
  now := r.now
  told := r.log.toList.filter isTick

/-- The dial once a timer has come due and its tick was told of. -/
def Dial.ticked (c : Dial) (x : Timer) : Dial :=
  { c with
    timers := c.timers.beginTick x.serial
    told := c.told ++ [.tick c.now x.id (x.tickCount + 1)] }

/-- What can happen at one instant. -/
inductive Beat : Dial → Dial → Prop
  | change {c : Dial} {timers : TimerTable} (h : c.timers.Later timers) : Beat c { c with timers }
  | beginWait {c : Dial} (serial order : Nat) :
      Beat c { c with timers := c.timers.beginWait serial c.now order }
  | sleep {c : Dial} {due order : Nat} {t : OpenTick} (h : c.now < due) :
      Beat c { c with sleeping := c.sleeping ++ [(due, order, t)] }
  | await {c : Dial} {x : Timer} {due order : Nat} (hx : x ∈ c.timers.timers)
      (hphase : x.phase = .asleep due order) (hdue : due ≤ c.now) :
      Beat c { c with timers := c.timers.update x.serial fun y => { y with phase := .awaiting } }
  | tick {c : Dial} {x : Timer} (hx : x ∈ c.timers.timers) (hready : x.IsReady c.now) :
      Beat c (c.ticked x)

/-- What can happen at one instant, one thing after another. -/
abbrev Beats : Dial → Dial → Prop := Relation.ReflTransGen Beat

variable {c c' : Dial}

theorem Beat.now_eq (hbeat : Beat c c') : c'.now = c.now := by cases hbeat <;> rfl

theorem Beats.now_eq (hbeats : Beats c c') : c'.now = c.now := by
  induction hbeats with
  | refl => rfl
  | tail _ hbeat ih => exact hbeat.now_eq.trans ih

theorem Beat.apart (hbeat : Beat c c') (hapart : c.timers.Apart) : c'.timers.Apart := by
  cases hbeat with
  | change hlater => exact hlater.apart hapart
  | sleep => exact hapart
  | _ => exact hapart.update _ fun _ => ⟨_, _, rfl⟩

theorem Beat.minInterval_eq (hbeat : Beat c c') :
    c'.timers.minInterval = c.timers.minInterval := by
  cases hbeat with
  | change hlater => exact hlater.minInterval
  | _ => rfl

theorem later_ask (request : TimerRequest) : r.timers.Later (r.ask request).1.timers := by
  cases request with
  | start id interval lines tickCount =>
      unfold ask start
      dsimp only
      split
      · exact .refl _
      · split
        · exact TimerTable.later_stop id
        · exact TimerTable.later_start id _ _ _
  | stop id => exact TimerTable.later_stop id
  | stopAll => exact TimerTable.later_stopAll
  | pause id => exact TimerTable.later_pause id
  | resume id => exact TimerTable.later_resume id
  | restore entries => exact TimerTable.later_restore entries

/-- A request changes nothing but the timers, of what is on the dial. -/
theorem dial_ask (request : TimerRequest) :
    (r.ask request).1.dial = { r.dial with timers := (r.ask request).1.timers } := by
  cases request with
  | start id interval lines tickCount =>
      unfold ask start
      dsimp only
      split
      · rfl
      · split <;> rfl
  | _ => rfl

theorem beats_ask (request : TimerRequest) : Beats r.dial (r.ask request).1.dial :=
  dial_ask request ▸ .single (.change (later_ask request))

theorem beats_beginWait (serial : Nat) : Beats r.dial (r.beginWait serial).dial :=
  .single (.beginWait serial r.nextOrder)

theorem beats_act (id : String) (actions : List TimerAction) :
    Beats r.dial (r.act serial id actions).dial := by
  induction actions generalizing r with
  | nil => exact beats_beginWait serial
  | cons action rest ih =>
      cases action with
      | sleep duration =>
          unfold act
          split
          · exact beats_beginWait serial
          · exact .refl
          · rename_i duration hpositive _
            exact .single (.sleep (Nat.lt_add_of_pos_right (Nat.pos_of_ne_zero hpositive)))
      | fail message => exact beats_beginWait serial
      | ask request =>
          have hask := beats_ask (r := r) request
          unfold act
          generalize r.ask request = step at hask
          obtain ⟨r₁, outcome⟩ := step
          cases outcome with
          | error e => exact hask.trans (beats_beginWait serial)
          | ok reply => exact hask.trans ih

theorem beats_goOn (t : OpenTick) : Beats r.dial (r.goOn t).dial := by
  let r₁ : TimerRun := { r with log := r.log.push (.woke r.now t.id (r.isStopped t.serial)) }
  have hsame : r₁.dial = r.dial := by
    unfold dial
    simp [r₁, isTick]
  exact hsame ▸ beats_act (r := r₁) t.id t.rest

/-- A timer ticks, and does its actions. -/
theorem beats_tick {x : Timer} (h : r.timers.bySerial? serial = some x) :
    Beats (r.dial.ticked x) (r.tick serial).dial := by
  let r₁ : TimerRun :=
    { r with
      timers := r.timers.beginTick serial
      log := r.log.push (.tick r.now x.id (x.tickCount + 1)) }
  have hticked : r₁.dial = r.dial.ticked x := by
    unfold dial Dial.ticked
    simp [r₁, isTick, (TimerTable.mem_of_bySerial? h).2]
  rw [tick_eq_act h]
  exact hticked ▸ beats_act (r := r₁) x.id _

theorem beats_takeFirst (r : TimerRun) : Beats r.dial r.takeFirst.dial := by
  unfold takeFirst
  split
  · exact .refl
  · rename_i t rest _
    -- the turns are not on the dial
    have hsame : ({ r with turns := rest } : TimerRun).dial = r.dial := rfl
    rw [← hsame]
    generalize ({ r with turns := rest } : TimerRun) = r₁
    cases t with
    | beginTimer serial =>
        simp only [take]
        split
        · exact beats_beginWait serial
        · exact .refl
    | tickTimer serial =>
        simp only [take]
        split
        · rename_i hwoken
          obtain ⟨x, hfound, hphase⟩ : ∃ x, r₁.timers.bySerial? serial = some x ∧
              x.phase = .woken := by
            simpa [isIn, Option.any_eq_true] using hwoken
          have hx := (TimerTable.mem_of_bySerial? hfound).1
          exact .head (.tick hx (.inl hphase)) (beats_tick hfound)
        · exact .refl
    | goOn t => exact beats_goOn t

/-! ## Waits -/

/-- A wait goes on: a timer sleeps, or a tick does. -/
def Dial.Waits (c : Dial) (d : Due) : Prop :=
  (∃ x ∈ c.timers.timers, d.waiter = .timer x.serial ∧ x.phase = .asleep d.time d.order) ∨
    ∃ t, (d.time, d.order, t) ∈ c.sleeping ∧ d.waiter = .tick t

theorem mem_dues_iff {d : Due} : d ∈ r.dues ↔ r.dial.Waits d := by
  obtain ⟨time, order, waiter⟩ := d
  refine List.mem_append.trans (or_congr ?_ ?_)
  · constructor
    · intro h
      obtain ⟨⟨time, order, serial⟩, hdue, heq⟩ := List.mem_map.mp h
      cases heq
      obtain ⟨x, hx, rfl, hphase⟩ := TimerTable.mem_dues.mp hdue
      exact ⟨x, hx, rfl, hphase⟩
    · rintro ⟨x, hx, rfl, hphase⟩
      exact List.mem_map.mpr ⟨_, TimerTable.mem_dues.mpr ⟨x, hx, rfl, hphase⟩, rfl⟩
  · constructor
    · intro h
      obtain ⟨⟨time, order, t⟩, hsleeper, heq⟩ := List.mem_map.mp h
      cases heq
      exact ⟨t, hsleeper, rfl⟩
    · rintro ⟨t, hsleeper, rfl⟩
      exact List.mem_map.mpr ⟨_, hsleeper, rfl⟩

/-- The timers are told apart, and none has an interval of no time. -/
structure Dial.Patient (c : Dial) : Prop where
  apart : c.timers.Apart
  slow : 1 ≤ c.timers.minInterval

theorem Beat.patient (hbeat : Beat c c') (h : c.Patient) : c'.Patient :=
  ⟨hbeat.apart h.apart, hbeat.minInterval_eq ▸ h.slow⟩

/-- Timers of which one is changed so that it does not sleep. -/
theorem waits_update {serial : Nat} {change : Timer → Timer} {told : List TimerEvent} {d : Due}
    (h : Dial.Waits { c with timers := c.timers.update serial change, told } d)
    (hchange : ∀ y due order, (change y).phase ≠ .asleep due order) :
    c.Waits d ∧ d.waiter ≠ .timer serial := by
  rcases h with ⟨y, hy, hwaiter, hphase⟩ | ⟨t, hsleeper, hwaiter⟩
  · obtain ⟨x, hx, ⟨hother, rfl⟩ | ⟨-, rfl⟩⟩ := TimerTable.mem_update hy
    · refine ⟨.inl ⟨y, hx, hwaiter, hphase⟩, fun hsame => hother ?_⟩
      exact Waiter.timer.inj (hwaiter.symm.trans hsame)
    · exact absurd hphase (hchange x _ _)
  · exact ⟨.inr ⟨t, hsleeper, hwaiter⟩, by rw [hwaiter]; nofun⟩

/-- A wait that goes on after a beat went on before, or ends later. -/
theorem Beat.waits (hbeat : Beat c c') (h : c.Patient) {d : Due} (hd : c'.Waits d) :
    c.now < d.time ∨ c.Waits d := by
  cases hbeat with
  | change hlater =>
      rcases hd with ⟨y, hy, hwaiter, hphase⟩ | htick
      · rcases hlater.timers y hy with ⟨x, hx, hstays⟩ | ⟨-, hfresh⟩
        · rcases hstays.phase with hsame | ⟨-, hwoken⟩
          · exact .inr (.inl ⟨x, hx, hstays.serial ▸ hwaiter, hsame.symm.trans hphase⟩)
          · rw [hwoken] at hphase
            nomatch hphase
        · rw [hfresh] at hphase
          nomatch hphase
      · exact .inr (.inr htick)
  | beginWait serial order =>
      rcases hd with ⟨y, hy, hwaiter, hphase⟩ | htick
      · obtain ⟨x, hx, ⟨-, rfl⟩ | ⟨-, rfl⟩⟩ := TimerTable.mem_update hy
        · exact .inr (.inl ⟨y, hx, hwaiter, hphase⟩)
        · have hclamped := h.apart.clamped x hx
          have hslow := h.slow
          dsimp only at hphase
          split at hphase
          · rename_i duration hclock
            have hpositive := Duration.one_le_of_onClock hclock (by omega)
            have hdue : c.now + duration = d.time := (TimerPhase.asleep.inj hphase).1
            exact .inl (by omega)
          · nomatch hphase
      · exact .inr (.inr htick)
  | sleep hlater =>
      rcases hd with htimer | ⟨t, hsleeper, hwaiter⟩
      · exact .inr (.inl htimer)
      · rcases List.mem_append.mp hsleeper with hold | hnew
        · exact .inr (.inr ⟨t, hold, hwaiter⟩)
        · cases List.mem_singleton.mp hnew
          exact .inl hlater
  | await => exact .inr (waits_update hd fun _ _ _ => nofun).1
  | tick => exact .inr (waits_update hd fun _ _ _ => nofun).1

theorem Beats.waits (hbeats : Beats c c') (h : c.Patient) :
    c'.Patient ∧ ∀ d, c'.Waits d → c.now < d.time ∨ c.Waits d := by
  induction hbeats with
  | refl => exact ⟨h, fun _ hd => .inr hd⟩
  | tail hbefore hbeat ih =>
      obtain ⟨hpatient, hwaits⟩ := ih
      refine ⟨hbeat.patient hpatient, fun d hd => ?_⟩
      rcases hbeat.waits hpatient hd with hlate | hthere
      · exact .inl (Beats.now_eq hbefore ▸ hlate)
      · exact hwaits d hthere

/-- What ends a wait, once its time has come. -/
inductive Ends (d : Due) (c : Dial) : Dial → Prop
  /-- A tick sleeps no more. -/
  | tick {t : OpenTick} (hwaiter : d.waiter = .tick t) :
      Ends d c { c with sleeping := c.sleeping.filter fun (_, order, _) => order ≠ d.order }
  /-- A timer sleeps no more. -/
  | timer {serial : Nat} {change : Timer → Timer} {told : List TimerEvent}
      (hwaiter : d.waiter = .timer serial)
      (hbeat : Beat c { c with timers := c.timers.update serial change, told })
      (hchange : ∀ y due order, (change y).phase ≠ .asleep due order) :
      Ends d c { c with timers := c.timers.update serial change, told }

theorem Ends.now_eq {d : Due} (hends : Ends d c c') : c'.now = c.now := by cases hends <;> rfl

theorem Ends.patient {d : Due} (hends : Ends d c c') (h : c.Patient) : c'.Patient := by
  cases hends with
  | tick => exact ⟨h.apart, h.slow⟩
  | timer hwaiter hbeat => exact hbeat.patient h

/-- A wait that goes on when one has ended went on before, and is not the one. -/
theorem Ends.waits {d e : Due} (hends : Ends d c c') (he : c'.Waits e) : c.Waits e ∧ e ≠ d := by
  cases hends with
  | @tick t hwaiter =>
      rcases he with ⟨x, hx, htimer, hphase⟩ | ⟨t', hsleeper, htick⟩
      · refine ⟨.inl ⟨x, hx, htimer, hphase⟩, fun heq => ?_⟩
        rw [heq, hwaiter] at htimer
        nomatch htimer
      · obtain ⟨hold, horder⟩ := List.mem_filter.mp hsleeper
        refine ⟨.inr ⟨t', hold, htick⟩, fun heq => ?_⟩
        exact of_decide_eq_true horder (congrArg Due.order heq)
  | timer hwaiter hbeat hchange =>
      obtain ⟨hwaits, hother⟩ := waits_update he hchange
      exact ⟨hwaits, fun heq => hother (heq ▸ hwaiter)⟩

theorem ends_wake (hapart : r.timers.Apart) {d : Due} (hd : d ∈ r.dues) :
    ∃ c, Ends d ({ r with now := max r.now d.time } : TimerRun).dial c ∧
      Beats c (r.wake d).dial := by
  rcases mem_dues_iff.mp hd with ⟨x, hx, hwaiter, hphase⟩ | ⟨t, hsleeper, hwaiter⟩
  · have hreached : d.time ≤ max r.now d.time := Nat.le_max_right _ _
    have hfound : r.timers.bySerial? x.serial = some x := hapart.bySerial?_eq_some hx
    unfold wake
    rw [hwaiter]
    dsimp only
    split
    · exact ⟨_, .timer hwaiter (.await hx hphase hreached) fun _ _ _ => nofun, .refl⟩
    · exact ⟨_, .timer hwaiter (.tick hx (.inr ⟨_, _, hphase, hreached⟩)) fun _ _ _ => nofun,
        beats_tick (r := { r with now := max r.now d.time }) hfound⟩
  · let r₁ : TimerRun :=
      { r with
        now := max r.now d.time
        sleeping := r.sleeping.filter fun (_, order, _) => order ≠ d.order }
    have hwake : r.wake d = r₁.goOn t := by
      unfold wake
      rw [hwaiter]
    exact ⟨r₁.dial, .tick hwaiter, hwake ▸ beats_goOn t⟩

theorem now_wake (hapart : r.timers.Apart) {d : Due} (hd : d ∈ r.dues) :
    (r.wake d).now = max r.now d.time := by
  obtain ⟨c, hends, hbeats⟩ := ends_wake hapart hd
  exact hbeats.now_eq.trans hends.now_eq

theorem passes_schedule : schedule.Passes (·.now) (·.dial.Patient) where
  take r h := by
    have hbeats := beats_takeFirst r
    obtain ⟨hpatient, hwaits⟩ := hbeats.waits h
    refine ⟨hpatient, hbeats.now_eq, fun e he => ?_⟩
    exact (hwaits e (mem_dues_iff.mp he)).imp id mem_dues_iff.mpr
  wake r d h hd := by
    obtain ⟨c, hends, hbeats⟩ := ends_wake h.apart hd
    have hlater : ({ r with now := max r.now d.time } : TimerRun).dial.Patient := ⟨h.apart, h.slow⟩
    obtain ⟨hpatient, hwaits⟩ := hbeats.waits (hends.patient hlater)
    refine ⟨hpatient, now_wake h.apart hd, fun e he => ?_⟩
    rcases hwaits e (mem_dues_iff.mp he) with hlate | hbefore
    · exact .inl (Nat.lt_of_le_of_lt (Nat.le_of_eq hends.now_eq.symm) hlate)
    · exact .inr ((hends.waits hbefore).imp mem_dues_iff.mpr id)

theorem beats_settle (r : TimerRun) : Beats r.dial (schedule.settle r).dial :=
  rounds_keeps (P := fun r' => Beats r.dial r'.dial) (fun r' h => h.trans (beats_takeFirst r')) _
    .refl

/-! ## Between moves -/

/-- Nothing is left to do at the present instant, and no wait is overdue. -/
structure Quiet (r : TimerRun) : Prop where
  patient : r.dial.Patient
  turns : r.turns = []
  dues : ∀ d ∈ r.dues, r.now < d.time

theorem Quiet.perform (h : r.Quiet) (request : TimerRequest) : (r.perform request).1.Quiet := by
  have hbeats : Beats r.dial (r.perform request).1.dial :=
    (beats_ask request).trans (beats_settle _)
  obtain ⟨hpatient, hwaits⟩ := hbeats.waits h.patient
  refine ⟨hpatient, turns_settle _, fun d hd => ?_⟩
  have hsame : (r.perform request).1.now = r.now := hbeats.now_eq
  rw [hsame]
  exact (hwaits d (mem_dues_iff.mp hd)).elim id fun hbefore => h.dues d (mem_dues_iff.mpr hbefore)

theorem Quiet.advance (h : r.Quiet) (duration : Nat) : (r.advance duration).Quiet := by
  have hpassed : (schedule.passUntil (r.now + duration) r).dial.Patient ∧
      (schedule.passUntil (r.now + duration) r).turns = [] := by
    refine rounds_keeps (P := fun r' : TimerRun => r'.dial.Patient ∧ r'.turns = []) ?_ _
      ⟨h.patient, h.turns⟩
    rintro r' ⟨hpatient, hturns⟩
    refine ⟨passes_schedule.wakeNext r' hpatient, ?_⟩
    unfold Schedule.wakeNext
    split
    · exact hturns
    · exact turns_settle _
  exact ⟨⟨hpassed.1.apart, hpassed.1.slow⟩, hpassed.2,
    passes_schedule.lt_of_mem_passUntil h.patient⟩

/-- **Nothing is put off.** Whatever the ticks do that overlap, between the moves of a user no turn
of the present instant is left, and no wait of a timer or of a tick is overdue. -/
theorem quiet_after {minInterval : Int} (hmin : 1 ≤ minInterval)
    (scripts : List (String × List TimerAction)) (moves : List TimerMove) :
    ((idle minInterval scripts).after moves).Quiet := by
  have hidle : (idle minInterval scripts).Quiet :=
    ⟨⟨TimerTable.apart_of_nil rfl, hmin⟩, rfl, fun _ hd => nomatch hd⟩
  generalize idle minInterval scripts = r at hidle
  unfold after
  induction moves generalizing r with
  | nil => exact hidle
  | cons move moves ih =>
      refine ih (r.move move) ?_
      cases move with
      | perform request => exact hidle.perform request
      | advance duration => exact hidle.advance duration

end TimerRun

end PointAndClick
