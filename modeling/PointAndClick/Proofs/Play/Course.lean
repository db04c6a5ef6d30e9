import PointAndClick.Proofs.Play.Completion
import PointAndClick.Proofs.Play.Ledger

/-!
# The course of a machine

The course of a machine under some moves is the list of all instants that it goes through: before
and after each move, and after each step of what a move runs. Each instant follows from the one
before in one of a few ways (`Instant.Follows`, `Machine.isChain_course`): by a step, by what the
surroundings do in a pause, or, while nothing runs, by the beginning of a call.
-/

set_option autoImplicit false

namespace PointAndClick

/-- Where a machine stands: its session, and what is to be worked off, which is nothing while no
call runs. -/
structure Instant where
  session : Session
  flow : Session.Flow
  frames : List Frame

namespace Session

/-- What may be done with a session in a pause as long as nobody goes to another place of the
history. -/
structure Calmly (s s' : Session) : Prop extends Meanwhile s s' where
  navigation : s'.navigation = s.navigation

theorem calmly_of_eq {s s' : Session} (hpresentation : s'.presentation = s.presentation)
    (hquit : s'.quit = s.quit) (hdepth : s'.depth = s.depth) (hlog : s'.log = s.log)
    (hnavigation : s'.navigation = s.navigation) : Calmly s s' where
  toMeanwhile := meanwhile_of_eq hpresentation hquit hdepth hlog ⟨_, hnavigation⟩
  navigation := hnavigation

theorem attends_calmly : Attends Calmly where
  refl _ := calmly_of_eq rfl rfl rfl rfl rfl
  trans h h' := ⟨h.toMeanwhile.trans h'.toMeanwhile, h'.navigation.trans h.navigation⟩
  told s _ h := by
    refine ⟨attends_meanwhile.told s h, ?_⟩
    unfold told
    split <;> rfl
  hovered _ _ := calmly_of_eq rfl rfl rfl rfl rfl
  paused _ _ := calmly_of_eq rfl rfl rfl rfl rfl
  pauseTimers _ _ := calmly_of_eq rfl rfl rfl rfl rfl
  resumeTimers _ _ := calmly_of_eq rfl rfl rfl rfl rfl
  stopTimer _ _ := calmly_of_eq rfl rfl rfl rfl rfl
  stopTimers _ := calmly_of_eq rfl rfl rfl rfl rfl

/-- The instants that follow the first one of a run. -/
def instants : Nat → Session → Flow → List Frame → List Instant
  | 0, _, _, _ => []
  | _ + 1, _, _, [] => []
  | fuel + 1, s, flow, frame :: frames =>
      match s.step flow frame frames with
      | (s, .wait _ frames) => [⟨s, .going, frames⟩]
      | (s, .goOn flow frames) => ⟨s, flow, frames⟩ :: instants fuel s flow frames

end Session

namespace Instant

/-- The ways in which one instant follows another. -/
inductive Follows : Instant → Instant → Prop
  | goOn {s s' : Session} {flow flow' : Session.Flow} {frame : Frame} {frames frames' : List Frame}
      (h : s.step flow frame frames = (s', .goOn flow' frames')) :
      Follows ⟨s, flow, frame :: frames⟩ ⟨s', flow', frames'⟩
  | wait {s s' : Session} {flow : Session.Flow} {frame : Frame} {frames frames' : List Frame}
      {duration : Nat} (h : s.step flow frame frames = (s', .wait duration frames')) :
      Follows ⟨s, flow, frame :: frames⟩ ⟨s', .going, frames'⟩
  | pause {s s' : Session} {frames : List Frame} (h : s.Calmly s') :
      Follows ⟨s, .going, frames⟩ ⟨s', .going, frames⟩
  | rest {s s' : Session} {flow : Session.Flow} : Follows ⟨s, flow, []⟩ ⟨s', .going, []⟩
  | list {s s' : Session} {flow : Session.Flow} {list : List Instruction} :
      Follows ⟨s, flow, []⟩ ⟨s', .going, [.commands list]⟩
  | change {s s' : Session} {flow : Session.Flow} {target : Nat} {recorded : Bool}
      (h : s'.navigation.transitioning = true) :
      Follows ⟨s, flow, []⟩ ⟨s', .going, [.leaving target recorded, .transition]⟩

/-- The instant at which a run stops. -/
def Ends (x : Instant) : Session × Session.Halt → Prop
  | (s, .finished _) => x.session = s ∧ x.frames = []
  | (s, .waiting _ frames) => x = ⟨s, .going, frames⟩

end Instant

/-- Nobody goes to another place of the history or restores a saved state in the move. -/
def Move.IsStill : Move → Prop
  | .act a => a.IsStill
  | _ => True

namespace Machine

/-- Where a machine stands between two moves. -/
def instant (m : Machine) : Instant :=
  ⟨m.session, .going, match m.running with
    | some r => r.frames
    | none => []⟩

/-- What a request works off when it is started. -/
def startLeg? (m : Machine) (r : Request) : Option (Session × List Frame) :=
  match r.work with
  | .commands list => some (m.executing.session, [.commands list])
  | .goToScene index recorded =>
      match Session.changeScene index recorded m.executing.session with
      | (.ok (some frames), s) => some (s, frames)
      | _ => none
  | .tick timer =>
      if (m.session.timers.bySerial? timer.serial).isNone then none
      else
        match Session.emit (.timerTick timer.id timer.tickCount) m.executing.session with
        | (.ok (), s) => some (s, [.commands timer.commands])
        | _ => none

/-- What is worked off when a request asks for the lock. -/
def answerLeg? (step : Machine × Option Request) : Option (Session × List Frame) :=
  match step.2 with
  | none => none
  | some r => if step.1.running.isNone && step.1.queue.isEmpty then step.1.startLeg? r else none

/-- What is worked off when a pause ends. -/
def goOnLeg? (m : Machine) : Option (Session × List Frame) :=
  m.running.map fun r => (m.session, r.frames)

/-- What is worked off in a move, if anything is. -/
def leg? (m : Machine) : Move → Option (Session × List Frame)
  | .act a => answerLeg? (m.enter a)
  | .ask r => answerLeg? (m, some r)
  | .turn t =>
      if t ∈ m.session.turns then
        match t with
        | .beginTimer _ => none
        | .tickTimer serial =>
            if (m.dropTurn t).isIn serial .woken then answerLeg? ((m.dropTurn t).tickCall serial)
            else none
        | .grant =>
            match m.queue with
            | [] => none
            | r :: rest => { m.dropTurn t with queue := rest }.startLeg? r
        | .resume => (m.dropTurn t).goOnLeg?
      else none
  | .wake d =>
      match d.waiter with
      | .running => { m with now := max m.now d.time }.goOnLeg?
      | .timer serial =>
          if (m.session.timers.bySerial? serial).any (·.paused) then none
          else answerLeg? ({ m with now := max m.now d.time }.tickCall serial)
  | .pass _ => none

/-- The instants of what is worked off. -/
def legInstants : Option (Session × List Frame) → List Instant
  | none => []
  | some (s, frames) => ⟨s, .going, frames⟩ :: s.instants (s.stackSteps frames) .going frames

/-- All instants that a machine goes through in some moves. -/
def course (m : Machine) : List Move → List Instant
  | [] => [m.instant]
  | move :: moves => m.instant :: (legInstants (m.leg? move) ++ (m.move move).course moves)

/-- While something runs, nobody goes to another place of the history or restores a saved state. -/
def IsStill (m : Machine) : List Move → Prop
  | [] => True
  | move :: moves => (m.running.isSome → move.IsStill) ∧ (m.move move).IsStill moves

/-! ## A course is a chain -/

open Instant

theorem isChain_instants {fuel : Nat} {s : Session} {flow : Session.Flow} {frames : List Frame}
    (hfuel : Session.Toll.steps.ofFrames s frames < fuel) {next : Instant} {rest : List Instant}
    (hend : ∀ last, Ends last (Session.runFrames fuel s flow frames) → Follows last next)
    (hrest : (next :: rest).IsChain Follows) :
    (⟨s, flow, frames⟩ :: (s.instants fuel flow frames ++ next :: rest)).IsChain Follows := by
  induction fuel generalizing s flow frames with
  | zero => exact absurd hfuel (Nat.not_lt_zero _)
  | succ fuel ih =>
      cases frames with
      | nil =>
          have hlast : Follows ⟨s, flow, []⟩ next := by
            cases flow <;> exact hend _ ⟨rfl, rfl⟩
          exact List.IsChain.cons_cons hlast hrest
      | cons frame frames =>
          simp only [Session.instants]
          simp only [Session.runFrames] at hend
          rcases hstep : s.step flow frame frames with ⟨s', p⟩
          rw [hstep] at hend
          cases p with
          | goOn flow' frames' =>
              have hless := Session.cost_step_lt hstep
              exact List.IsChain.cons_cons (.goOn hstep)
                (ih (Nat.lt_of_lt_of_le hless (Nat.le_of_lt_succ hfuel)) hend)
          | wait duration frames' =>
              exact List.IsChain.cons_cons (.wait hstep)
                (List.IsChain.cons_cons (hend _ rfl) hrest)

/-- What is worked off leads from one machine to another. -/
inductive Leg (m : Machine) : Option (Session × List Frame) → Machine → Prop
  | none {m' : Machine} (h : Follows m.instant m'.instant) : Leg m none m'
  | some {s : Session} {frames : List Frame} {m' : Machine}
      (hbegin : Follows m.instant ⟨s, .going, frames⟩)
      (hend : ∀ last, Ends last (s.run .going frames) → Follows last m'.instant) :
      Leg m (some (s, frames)) m'

theorem Leg.isChain {m m' : Machine} {leg : Option (Session × List Frame)} (h : Leg m leg m')
    {rest : List Instant} (hrest : (m'.instant :: rest).IsChain Follows) :
    (m.instant :: (legInstants leg ++ m'.instant :: rest)).IsChain Follows := by
  cases h with
  | none h => exact List.IsChain.cons_cons h hrest
  | some hbegin hend =>
      exact List.IsChain.cons_cons hbegin
        (isChain_instants (Session.cost_lt_stackSteps _ _) hend hrest)

variable {m : Machine} {r : Running}

theorem instant_of_running (h : m.running = some r) :
    m.instant = ⟨m.session, .going, r.frames⟩ := by
  unfold instant
  rw [h]

theorem instant_of_free (h : m.running = none) : m.instant = ⟨m.session, .going, []⟩ := by
  unfold instant
  rw [h]

theorem follows_of_free {m' : Machine} (h : m.running = none) (h' : m'.running = none) :
    Follows m.instant m'.instant := by
  rw [instant_of_free h, instant_of_free h']
  exact .rest

theorem follows_of_abides {m' : Machine} (hrunning : m.running = some r)
    (h : Abides Session.Calmly m m') : Follows m.instant m'.instant := by
  rw [instant_of_running hrunning, instant_of_running (h.running.trans hrunning)]
  exact .pause h.session

/-- A machine stands where its run stopped. -/
theorem follows_runFrames (m : Machine) (owner : Owner) (reply : Reply) (frames : List Frame)
    (last : Instant) (h : Ends last (m.session.run .going frames)) :
    Follows last (m.runFrames owner reply frames).instant := by
  rw [runFrames_eq_halt]
  obtain ⟨session, flow, left⟩ := last
  generalize m.session.run .going frames = outcome at h ⊢
  have hfinished (s : Session) (result : Except Fault Reply) :
      Follows ⟨s, flow, []⟩ ({ m with session := s }.finish owner result).instant := by
    rw [instant_of_free (finish_running result)]
    exact .rest
  rcases outcome with ⟨s, halt⟩
  cases halt with
  | finished result =>
      obtain ⟨rfl, rfl⟩ := h
      cases result <;> exact hfinished _ _
  | waiting duration frames' =>
      cases h
      simp only [Machine.halt]
      split
      · exact .pause (Session.attends_calmly.refl _)
      · exact .pause (Session.calmly_of_eq rfl rfl rfl rfl rfl)

theorem leg_runFrames {m₀ m : Machine} {frames : List Frame}
    (hbegin : Follows m₀.instant ⟨m.session, .going, frames⟩) (owner : Owner) (reply : Reply) :
    Leg m₀ (some (m.session, frames)) (m.runFrames owner reply frames) :=
  .some hbegin (follows_runFrames m owner reply frames)

/-- A request that is started while nothing runs works off its leg. -/
theorem leg_start {m₀ : Machine} (hfree : m₀.running = none) (r : Request) :
    Leg m₀ (m.startLeg? r) (m.start r) := by
  have hfinish (m' : Machine) (result : Except Fault Reply) :
      Leg m₀ none (m'.finish r.owner result) :=
    .none (follows_of_free hfree (finish_running result))
  have hlist (s : Session) (list : List Instruction) :
      Follows m₀.instant ⟨s, .going, [.commands list]⟩ := by
    rw [instant_of_free hfree]
    exact .list
  obtain ⟨owner, work, reply⟩ := r
  cases work with
  | commands list =>
      exact leg_runFrames (m := m.executing) (hlist _ list) owner reply
  | goToScene index recorded =>
      simp only [startLeg?, start]
      rw [Session.changeScene_apply]
      cases m.executing.session.navigation.scene index with
      | error e => exact hfinish _ _
      | ok target =>
          cases htransitioning : m.executing.session.navigation.transitioning with
          | true =>
              simp only [if_true]
              exact hfinish _ _
          | false =>
              simp only [Bool.false_eq_true, if_false]
              refine leg_runFrames (m := { m.executing with session := _ }) ?_ owner _
              rw [instant_of_free hfree]
              exact .change rfl
  | tick timer =>
      simp only [startLeg?, start]
      split
      · exact hfinish _ _
      · rcases Session.emit (.timerTick timer.id timer.tickCount) m.executing.session with
          ⟨e | u, s⟩
        · exact hfinish _ _
        · exact leg_runFrames (m := { m.executing with session := s }) (hlist s _) owner reply

/-- What is done aside works off nothing. While something is paused, it has to be calm. -/
theorem leg_aside {m' : Machine} (hrunning : m'.running = m.running)
    (hcalm : m.running.isSome → m.session.Calmly m'.session) : Leg m none m' := by
  cases hr : m.running with
  | none => exact .none (follows_of_free hr (hrunning.trans hr))
  | some r =>
      rw [hr] at hcalm
      exact .none (follows_of_abides hr ⟨hrunning, hcalm rfl⟩)

/-- What asks for the lock is started if it is free, and waits otherwise. -/
theorem leg_answer {step : Machine × Option Request} (hrunning : step.1.running = m.running)
    (hcalm : m.running.isSome → m.session.Calmly step.1.session) :
    Leg m (answerLeg? step) (answer step) := by
  obtain ⟨m', _ | request⟩ := step
  · exact leg_aside hrunning hcalm
  · simp only [answerLeg?, answer, Machine.request]
    split
    · rename_i hfree
      have hfree' : m.running = none := by
        rw [Bool.and_eq_true, Option.isNone_iff_eq_none] at hfree
        exact hrunning.symm.trans hfree.1
      exact leg_start hfree' request
    · exact leg_aside hrunning hcalm

/-- What is paused goes on, if anything is. -/
theorem leg_goOn {m' : Machine} (hrunning : m'.running = m.running)
    (hcalm : m.session.Calmly m'.session) : Leg m m'.goOnLeg? m'.goOn := by
  unfold goOnLeg? goOn
  cases hr : m'.running with
  | none => exact leg_aside hrunning fun _ => hcalm
  | some r =>
      refine leg_runFrames (m := { m' with running := none }) ?_ r.owner r.reply
      rw [instant_of_running (hrunning.symm.trans hr)]
      exact .pause hcalm

theorem leg_move (hlocks : m.Locks) {move : Move} (hstill : m.running.isSome → move.IsStill) :
    Leg m (m.leg? move) (m.move move) := by
  have hcalm {m' : Machine} (hsession : ∃ timers turns,
      m'.session = { m.session with timers, turns }) : m.session.Calmly m'.session := by
    obtain ⟨timers, turns, hsession⟩ := hsession
    rw [hsession]
    exact Session.calmly_of_eq rfl rfl rfl rfl rfl
  cases move with
  | act a =>
      have henter : (m.enter a).1.running = m.running ∧
          (m.enter a).1.session = (plan a m.session).2 := by
        unfold enter
        dsimp only
        split <;> rename_i hact <;> rw [hact] <;> exact ⟨rfl, rfl⟩
      refine leg_answer henter.1 fun hbusy => ?_
      rw [henter.2]
      exact (Session.attends_calmly.plan (hstill hbusy) m.session).related
  | ask r =>
      show Leg m (answerLeg? (m, some r)) (answer (m, some r))
      exact leg_answer rfl fun _ => hcalm ⟨_, _, rfl⟩
  | turn t =>
      show Leg m (if t ∈ m.session.turns then _ else none)
        (if t ∈ m.session.turns then (m.dropTurn t).take t else m)
      split
      · rename_i hmem
        cases t with
        | beginTimer serial =>
            refine leg_aside ?_ fun _ => hcalm ?_ <;> simp only [take] <;> split
            · rfl
            · rfl
            · exact ⟨_, _, rfl⟩
            · exact ⟨_, _, rfl⟩
        | tickTimer serial =>
            simp only [take]
            split
            · rw [tick_eq_answer]
              exact leg_answer rfl fun _ => hcalm ⟨_, _, rfl⟩
            · exact leg_aside rfl fun _ => hcalm ⟨_, _, rfl⟩
        | grant =>
            simp only [take]
            have hqueue : (m.dropTurn .grant).queue = m.queue := rfl
            rw [hqueue]
            cases m.queue with
            | nil => exact leg_aside rfl fun _ => hcalm ⟨_, _, rfl⟩
            | cons r rest =>
                exact leg_start (m := { m.dropTurn .grant with queue := rest })
                  (hlocks.of_grant_mem hmem).1 r
        | resume => exact leg_goOn rfl (hcalm ⟨_, _, rfl⟩)
      · exact leg_aside rfl fun _ => hcalm ⟨_, _, rfl⟩
  | wake d =>
      show Leg m (m.leg? (.wake d)) (m.wake d)
      unfold wake leg?
      dsimp only
      cases d.waiter with
      | running =>
          have hlater : m.session.Calmly { m with now := max m.now d.time }.session :=
            Session.attends_calmly.refl m.session
          exact leg_goOn rfl hlater
      | timer serial =>
          dsimp only
          split
          · exact leg_aside rfl fun _ => hcalm ⟨_, _, rfl⟩
          · rw [tick_eq_answer]
            exact leg_answer rfl fun _ => hcalm ⟨_, _, rfl⟩
  | pass time => exact leg_aside rfl fun _ => hcalm ⟨_, _, rfl⟩

theorem course_eq_cons (m : Machine) (moves : List Move) :
    ∃ rest, m.course moves = m.instant :: rest := by
  cases moves <;> exact ⟨_, rfl⟩

/-- Each instant of a course follows from the one before. -/
theorem isChain_course {l : Ledger} (hl : l.Fair) {moves : List Move}
    (hstill : l.machine.IsStill moves) : (l.machine.course moves).IsChain Follows := by
  induction moves generalizing l with
  | nil => exact List.IsChain.singleton _
  | cons move moves ih =>
      have hmove := Ledger.machine_move hl move
      have hrest := ih (hl.move move) (hmove.symm ▸ hstill.2)
      rw [hmove] at hrest
      obtain ⟨rest, hcourse⟩ := course_eq_cons (l.machine.move move) moves
      rw [hcourse] at hrest
      have hleg := (leg_move hl.locks hstill.1).isChain hrest
      rw [← hcourse] at hleg
      exact hleg

end Machine

end PointAndClick
