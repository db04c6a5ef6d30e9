import PointAndClick.Proofs.Play.Lock
import PointAndClick.Proofs.Play.Tending
import PointAndClick.Proofs.Play.Ticks

/-!
# The clockwork

The ticking of timers depends on a small part of a machine: the timers, the calls that wait for the
lock, who has it, and the time. `Clockwork.Beat` has one case for each thing that can happen to this
part, with the tick that begins in it, and every move of a machine is some beats
(`Machine.beats_move`). Whatever holds of the ticks of all runs is proved from these cases.
-/

set_option autoImplicit false

namespace PointAndClick

/-- The timer once its wait is over. -/
def Timer.comeDue (x : Timer) : Timer := { x with phase := .ticking, tickCount := x.tickCount + 1 }

/-- What a timer asks for when its wait is over. -/
def Timer.call (x : Timer) : Request := { owner := .timer x.serial, work := .tick x.comeDue }

/-- The timer may come due: it was resumed, or its wait ends. -/
def Timer.IsReady (x : Timer) (now : Nat) : Prop :=
  x.phase = .woken ∨ ∃ due order, x.phase = .asleep due order ∧ due ≤ now

/-- What the ticking of timers depends on, and the ticks that were told of. -/
structure Clockwork where
  timers : TimerTable
  queue : List Request
  holder : Option Owner
  now : Nat
  records : Bool
  told : List LogEntry

namespace Clockwork

/-- What can happen to a clockwork, with the tick that begins in it. Timers from `base` on are those
that started since some moment; only those before may do anything yet. -/
inductive Beat (base : Nat) : Clockwork → List Tick → Clockwork → Prop
  | change {c : Clockwork} {timers : TimerTable} (h : c.timers.Later timers) :
      Beat base c [] { c with timers }
  | pass {c : Clockwork} {now : Nat} (h : c.now ≤ now) : Beat base c [] { c with now }
  | beginWait {c : Clockwork} {x : Timer} {order : Nat} (hx : x ∈ c.timers.timers)
      (hbase : x.serial < base) (hphase : x.phase = .fresh) :
      Beat base c [] { c with timers := c.timers.beginWait x.serial c.now order }
  | await {c : Clockwork} {x : Timer} {due order : Nat} (hx : x ∈ c.timers.timers)
      (hbase : x.serial < base) (hphase : x.phase = .asleep due order) (hdue : due ≤ c.now) :
      Beat base c []
        { c with timers := c.timers.update x.serial fun y => { y with phase := .awaiting } }
  | comeDue {c : Clockwork} {x : Timer} (hx : x ∈ c.timers.timers) (hbase : x.serial < base)
      (hready : x.IsReady c.now) :
      Beat base c []
        { c with timers := c.timers.beginTick x.serial, queue := c.queue ++ [x.call] }
  | call {c : Clockwork} {r : Request} {job : Nat} (howner : r.owner = .user job)
      (hwork : ∀ timer, r.work ≠ .tick timer) :
      Beat base c [] { c with queue := c.queue ++ [r] }
  | grant {c : Clockwork} {r : Request} {rest : List Request} (hqueue : c.queue = r :: rest)
      (hfree : c.holder = none)
      (hnone : ∀ timer, r.work = .tick timer → c.timers.bySerial? timer.serial = none) :
      Beat base c [] { c with queue := rest, holder := some r.owner }
  | tick {c : Clockwork} {r : Request} {rest : List Request} {timer : Timer}
      (hqueue : c.queue = r :: rest) (hfree : c.holder = none) (hwork : r.work = .tick timer)
      (hthere : c.timers.bySerial? timer.serial ≠ none) :
      Beat base c [⟨timer, c.now⟩]
        { c with
          queue := rest
          holder := some r.owner
          told := c.told ++ if c.records then [Tick.entry ⟨timer, c.now⟩] else [] }
  | finishCall {c : Clockwork} {job : Nat} (hholder : c.holder = some (.user job)) :
      Beat base c [] { c with holder := none }
  | finishTick {c : Clockwork} {serial order : Nat} (hholder : c.holder = some (.timer serial)) :
      Beat base c []
        { c with holder := none, timers := c.timers.beginWait serial c.now order }

/-- What can happen to a clockwork, step after step, with the ticks that begin. -/
inductive Beats (base : Nat) : Clockwork → List Tick → Clockwork → Prop
  | refl (c : Clockwork) : Beats base c [] c
  | cons {c₁ c₂ c₃ : Clockwork} {ticks ticks' : List Tick} (h : Beat base c₁ ticks c₂)
      (h' : Beats base c₂ ticks' c₃) : Beats base c₁ (ticks ++ ticks') c₃

variable {base : Nat} {c₁ c₂ c₃ : Clockwork} {ticks : List Tick}

theorem Beat.beats (h : Beat base c₁ ticks c₂) : Beats base c₁ ticks c₂ :=
  List.append_nil ticks ▸ .cons h (.refl c₂)

/-- A beat in which no tick begins comes first. -/
theorem Beat.then (h : Beat base c₁ [] c₂) (h' : Beats base c₂ ticks c₃) :
    Beats base c₁ ticks c₃ := .cons h h'

end Clockwork

namespace Machine

open Clockwork

variable {m : Machine} {base : Nat} {owner : Owner}

/-- The clockwork of a machine. -/
def clockwork (m : Machine) : Clockwork where
  timers := m.session.timers
  queue := m.queue
  holder := m.running.map (·.owner)
  now := m.now
  records := m.session.presentation.records
  told := m.session.log.toList.filter (·.isTick)

/-- The clockwork of a machine that works for somebody. -/
def clockworkFor (m : Machine) (owner : Owner) : Clockwork :=
  { m.clockwork with holder := some owner }

/-- The ticks that begin at a time: at most one. -/
def tickAt (found : Option Timer) (now : Nat) : List Tick := found.toList.map (⟨·, now⟩)

/-- A list that runs and a user who acts change the timers and tell of no tick. -/
theorem clockwork_of_tends {s : Session} (h : Session.Tends m.session s) :
    ({ m with session := s } : Machine).clockwork = { m.clockwork with timers := s.timers } := by
  unfold clockwork
  simp only [h.presentation, h.ticks]

theorem beat_of_tends {s : Session} (h : Session.Tends m.session s) :
    Beat base (m.clockworkFor owner) []
      (({ m with session := s } : Machine).clockworkFor owner) := by
  unfold clockworkFor
  rw [clockwork_of_tends h]
  exact .change h.timers

/-! ## Work for a call -/

theorem beats_finish (result : Except Fault Reply) :
    Beats base (m.clockworkFor owner) [] (m.finish owner result).clockwork := by
  unfold finish
  -- the turn that hands on the lock is no part of the clockwork
  cases owner with
  | user job =>
      dsimp only
      split <;> exact Beat.beats (.finishCall rfl)
  | timer serial =>
      dsimp only
      split <;> exact Beat.beats (.finishTick rfl)

theorem beats_runFrames (reply : Reply) (frames : List Frame) :
    Beats base (m.clockworkFor owner) [] (m.runFrames owner reply frames).clockwork := by
  have htends := Session.tends_run (s := m.session) .going frames
  unfold runFrames
  split
  all_goals
    rename_i hrun
    rw [hrun] at htends
  · exact (beat_of_tends htends).then (beats_finish _)
  · exact (beat_of_tends htends).then (beats_finish _)
  · split
    · exact (beat_of_tends htends).beats
    · exact (beat_of_tends htends).beats

/-- The first of the calls that wait has got the lock, without a tick of a timer that is there. -/
theorem beat_grant {r : Request} (hfree : m.running = none)
    (hnone : ∀ timer, r.work = .tick timer → m.session.timers.bySerial? timer.serial = none) :
    Beat base { m.clockwork with queue := r :: m.queue } [] (m.clockworkFor r.owner) :=
  .grant rfl (congrArg (Option.map _) hfree) hnone

/-- The first of the calls that wait has got the lock, and its tick was told of. -/
theorem beat_tick {r : Request} {timer : Timer} (hfree : m.running = none)
    (hwork : r.work = .tick timer) (hthere : m.session.timers.bySerial? timer.serial ≠ none) :
    Beat base { m.clockwork with queue := r :: m.queue } [⟨timer, m.now⟩]
      (({ m with session := m.session.told (Tick.entry ⟨timer, m.now⟩) } : Machine).clockworkFor
        r.owner) := by
  have htick : Beat base { m.clockwork with queue := r :: m.queue } [⟨timer, m.now⟩] _ :=
    .tick rfl (congrArg (Option.map _) hfree) hwork hthere
  have hentry : (Tick.entry ⟨timer, m.now⟩).isTick = true := rfl
  have htold : (m.session.told (Tick.entry ⟨timer, m.now⟩)).log.toList.filter (·.isTick) =
      m.session.log.toList.filter (·.isTick) ++
        if m.session.presentation.records then [Tick.entry ⟨timer, m.now⟩] else [] := by
    rw [Session.toList_log_told, List.filter_append]
    split
    · rw [List.filter_cons_of_pos hentry, List.filter_nil]
    · rfl
  unfold clockworkFor clockwork
  simp only [htold, Session.timers_told, Session.presentation_told]
  exact htick

theorem beats_start (r : Request) (hfree : m.running = none) :
    Beats base { m.clockwork with queue := r :: m.queue } (tickAt (m.begins? r) m.now)
      (m.start r).clockwork := by
  unfold start begins?
  cases hwork : r.work with
  | commands list =>
      have hgrant : Beat base _ [] (m.clockworkFor r.owner) :=
        beat_grant hfree fun timer htick => by rw [hwork] at htick; nomatch htick
      exact hgrant.then (beats_runFrames (m := m.executing) r.reply _)
  | goToScene index recorded =>
      have hgrant : Beat base _ [] (m.clockworkFor r.owner) :=
        beat_grant hfree fun timer htick => by rw [hwork] at htick; nomatch htick
      have htends := Session.follows_tends.changeScene index recorded m.executing.session
      dsimp only
      split
      all_goals
        rename_i hact
        rw [hact] at htends
      · exact hgrant.then ((beat_of_tends htends).then (beats_finish _))
      · exact hgrant.then ((beat_of_tends htends).then (beats_finish _))
      · exact hgrant.then ((beat_of_tends htends).then (beats_runFrames _ _))
  | tick timer =>
      dsimp only
      split
      · rename_i hstopped
        refine Beat.then (beat_grant hfree fun timer' htick => ?_) (beats_finish _)
        rw [hwork] at htick
        cases htick
        exact Option.isNone_iff_eq_none.mp hstopped
      · rename_i hthere
        have htick : Beat base _ _ _ := beat_tick (m := m.executing) hfree hwork
          (fun hnone => hthere (Option.isNone_iff_eq_none.mpr hnone))
        rw [Session.emit, Session.tell_apply]
        cases m.executing.session.answer _ with
        | error e => exact .cons htick (beats_finish _)
        | ok _ => exact .cons htick (beats_runFrames _ _)

/-! ## Asking for the lock -/

/-- A call that asks for the lock goes to the end of the queue, from where it gets the lock at once
if it is free and nothing waits. -/
theorem beats_request (r : Request) :
    Beats base { m.clockwork with queue := m.queue ++ [r] }
      (tickAt (beginsNow? (m, some r)) m.now) (m.request r).clockwork := by
  unfold request beginsNow?
  dsimp only
  by_cases hnow : (m.running.isNone && m.queue.isEmpty) = true
  · rw [if_pos hnow, if_pos hnow]
    rw [Bool.and_eq_true, Option.isNone_iff_eq_none, List.isEmpty_iff] at hnow
    obtain ⟨hfree, hqueue⟩ := hnow
    have hstart : Beats base _ _ _ := beats_start r hfree
    rw [hqueue] at hstart ⊢
    exact hstart
  · rw [if_neg hnow, if_neg hnow]
    exact .refl _

theorem beats_call {r : Request} {job : Nat} (howner : r.owner = .user job)
    (hwork : ∀ timer, r.work ≠ .tick timer) :
    Beats base m.clockwork (tickAt (beginsNow? (m, some r)) m.now) (m.request r).clockwork :=
  Beat.then (.call howner hwork) (beats_request r)

theorem beginsNow?_none (m : Machine) : beginsNow? (m, none) = none := by
  unfold beginsNow?
  split <;> rfl

theorem tickCall_eq {x : Timer} (hapart : m.session.timers.Apart)
    (hx : x ∈ m.session.timers.timers) :
    m.tickCall x.serial =
      ({ m with session := { m.session with timers := m.session.timers.beginTick x.serial } },
        some x.call) := by
  have hdue : x.comeDue ∈ (m.session.timers.beginTick x.serial).timers :=
    List.mem_map.mpr ⟨x, hx, if_pos rfl⟩
  have happart : (m.session.timers.beginTick x.serial).Apart :=
    hapart.update x.serial fun y => ⟨_, _, rfl⟩
  have hfound : (m.session.timers.beginTick x.serial).bySerial? x.serial = some x.comeDue :=
    happart.bySerial?_eq_some hdue
  unfold tickCall
  dsimp only
  rw [hfound]
  rfl

/-- A timer that comes due asks for the lock. -/
theorem beats_tick {x : Timer} (hapart : m.session.timers.Apart)
    (hx : x ∈ m.session.timers.timers) (hbase : x.serial < base) (hready : x.IsReady m.now) :
    Beats base m.clockwork (tickAt (beginsNow? (m.tickCall x.serial)) m.now)
      (m.tick x.serial).clockwork := by
  rw [tick_eq_answer, tickCall_eq hapart hx]
  let m' : Machine :=
    { m with session := { m.session with timers := m.session.timers.beginTick x.serial } }
  have hdue : Beat base m.clockwork [] { m'.clockwork with queue := m'.queue ++ [x.call] } :=
    .comeDue hx hbase hready
  exact hdue.then (beats_request (m := m') x.call)

/-- What a user does at once comes before the call, if there is one. -/
theorem beats_enter (a : Action) :
    Beats base m.clockwork (tickAt (beginsNow? (m.enter a)) m.now)
      (answer (m.enter a)).clockwork := by
  obtain ⟨htends, hresult⟩ := Session.keeps_plan a m.session
  have hchange : Beat base m.clockwork [] { m.clockwork with timers := _ } :=
    .change htends.timers
  rw [← clockwork_of_tends htends] at hchange
  unfold enter
  dsimp only
  split
  all_goals
    rename_i hplan
    rw [hplan] at hchange hresult
  · rw [beginsNow?_none]
    exact hchange.beats
  · rw [beginsNow?_none]
    exact hchange.beats
  · rename_i work reply s
    have hwork : ∀ timer, work ≠ .tick timer := by
      rintro timer rfl
      exact hresult _ rfl
    exact hchange.then
      (beats_call (m := { m with session := s, nextJob := m.nextJob + 1 }) rfl hwork)

theorem beats_goOn : Beats base m.clockwork [] m.goOn.clockwork := by
  unfold goOn
  split
  · exact .refl _
  · rename_i r hrunning
    have hfor : m.clockwork = ({ m with running := none } : Machine).clockworkFor r.owner := by
      unfold clockworkFor clockwork
      rw [hrunning]
      rfl
    rw [hfor]
    exact beats_runFrames _ _

/-! ## Moves -/

theorem mem_of_isIn {serial : Nat} {phase : TimerPhase} (h : m.isIn serial phase = true) :
    ∃ x ∈ m.session.timers.timers, x.serial = serial ∧ x.phase = phase := by
  unfold isIn at h
  cases hfound : m.session.timers.bySerial? serial with
  | none => rw [hfound] at h; nomatch h
  | some x =>
      rw [hfound] at h
      obtain ⟨hx, hserial⟩ := TimerTable.mem_of_bySerial? hfound
      exact ⟨x, hx, hserial, by simpa using h⟩

/-- A wait that goes on is that of a timer or that of what runs. -/
theorem mem_dues_iff {d : Due} : d ∈ m.dues ↔
    (∃ x ∈ m.session.timers.timers, d.waiter = .timer x.serial ∧
      x.phase = .asleep d.time d.order) ∨
      ∃ r, m.running = some r ∧ r.wake = some (d.time, d.order) ∧ d.waiter = .running := by
  obtain ⟨time, order, waiter⟩ := d
  refine List.mem_append.trans (or_congr ?_ ?_)
  · constructor
    · intro h
      obtain ⟨⟨time, order, serial⟩, hdue, heq⟩ := List.mem_map.mp h
      cases heq
      obtain ⟨x, hx, rfl, hphase⟩ := TimerTable.mem_dues.mp hdue
      exact ⟨x, hx, rfl, hphase⟩
    · rintro ⟨x, hx, rfl, hphase⟩
      exact List.mem_map.mpr ⟨_, TimerTable.mem_dues.mpr ⟨x, hx, rfl, hphase⟩, rfl⟩
  · constructor
    · intro h
      split at h
      · rename_i hwake
        obtain ⟨r, hr, hsome⟩ := Option.bind_eq_some_iff.mp hwake
        cases List.mem_singleton.mp h
        exact ⟨r, hr, hsome, rfl⟩
      · nomatch h
    · rintro ⟨r, hr, hwake, rfl⟩
      dsimp only at hwake
      rw [hr, Option.bind_some, hwake]
      exact List.mem_singleton_self _

/-- The clockwork of a machine whose timers are told apart: those that are there started before. -/
theorem beats_take (hapart : m.session.timers.Apart) (hlocks : m.Locks) {t : Turn}
    (ht : t ∈ m.session.turns) :
    Beats m.session.timers.nextSerial m.clockwork (tickAt (m.tickOfTurn? t) m.now)
      ((m.dropTurn t).take t).clockwork := by
  cases t with
  | beginTimer serial =>
      simp only [take, tickOfTurn?]
      split
      · rename_i hfresh
        obtain ⟨x, hx, rfl, hphase⟩ := mem_of_isIn hfresh
        exact Beat.beats (.beginWait hx (hapart.below x hx) hphase)
      · exact .refl _
  | tickTimer serial =>
      simp only [take, tickOfTurn?]
      have hsame : (m.dropTurn (.tickTimer serial)).isIn serial .woken = m.isIn serial .woken := rfl
      rw [hsame]
      split
      · rename_i hwoken
        obtain ⟨x, hx, rfl, hphase⟩ := mem_of_isIn hwoken
        exact beats_tick (m := m.dropTurn (.tickTimer x.serial)) hapart hx (hapart.below x hx)
          (.inl hphase)
      · exact .refl _
  | grant =>
      obtain ⟨hfree, hqueue, -⟩ := hlocks.of_grant_mem ht
      obtain ⟨r, rest, hcons⟩ := List.exists_cons_of_ne_nil hqueue
      have hdrop : (m.dropTurn .grant).queue = r :: rest := hcons
      simp only [take, tickOfTurn?, hdrop, hcons]
      have hstart : Beats m.session.timers.nextSerial _ _ _ :=
        beats_start (m := { m.dropTurn .grant with queue := rest }) r hfree
      have hsame : m.clockwork = { m.clockwork with queue := r :: rest } := by
        rw [← hcons]
        rfl
      rw [hsame]
      exact hstart
  | resume => exact beats_goOn (m := m.dropTurn .resume)

theorem beats_wake (hapart : m.session.timers.Apart) {d : Due} (hd : d ∈ m.dues) :
    Beats m.session.timers.nextSerial m.clockwork
      (tickAt (m.tickOfWait? d.waiter) (max m.now d.time)) (m.wake d).clockwork := by
  have hpass : Beat m.session.timers.nextSerial m.clockwork []
      ({ m with now := max m.now d.time } : Machine).clockwork := .pass (Nat.le_max_left _ _)
  unfold tickOfWait? wake
  rcases mem_dues_iff.mp hd with ⟨x, hx, hwaiter, hphase⟩ | ⟨-, -, -, hwaiter⟩
  · rw [hwaiter]
    dsimp only
    split
    · exact hpass.then
        (Beat.beats (.await hx (hapart.below x hx) hphase (Nat.le_max_right _ _)))
    · exact hpass.then
        (beats_tick hapart hx (hapart.below x hx) (.inr ⟨_, _, hphase, Nat.le_max_right _ _⟩))
  · rw [hwaiter]
    exact hpass.then beats_goOn

/-- A move is some beats of the clockwork, with the tick that begins in the move. -/
theorem beats_move (hapart : m.session.timers.Apart) (hlocks : m.Locks) {move : Move}
    (hadmits : m.Admits move) :
    Beats m.session.timers.nextSerial m.clockwork (tickAt (m.tick? move) (m.move move).now)
      (m.move move).clockwork := by
  cases move with
  | act a =>
      have hnow : (m.move (.act a)).now = m.now := by
        show (answer (m.enter a)).now = m.now
        rw [answer_now]
        unfold enter
        dsimp only
        split <;> rfl
      rw [hnow]
      exact beats_enter a
  | ask r =>
      obtain ⟨⟨job, howner⟩, hwork⟩ := hadmits
      have hnow : (m.move (.ask r)).now = m.now := request_now r
      rw [hnow]
      exact beats_call howner hwork
  | turn t =>
      by_cases ht : t ∈ m.session.turns
      · have hmove : m.move (.turn t) = (m.dropTurn t).take t := if_pos ht
        have htick : m.tick? (.turn t) = m.tickOfTurn? t := if_pos ht
        rw [hmove, htick, take_now]
        exact beats_take hapart hlocks ht
      · have hmove : m.move (.turn t) = m := if_neg ht
        have hnone : m.tick? (.turn t) = none := if_neg ht
        rw [hmove, hnone]
        exact .refl _
  | wake d =>
      have hnow : (m.move (.wake d)).now = max m.now d.time := wake_now d
      rw [hnow]
      exact beats_wake hapart hadmits
  | pass time => exact Beat.beats (.pass hadmits)

end Machine

end PointAndClick
