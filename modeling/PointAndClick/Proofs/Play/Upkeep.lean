import PointAndClick.Proofs.Navigation.Soundness
import PointAndClick.Proofs.Play.Completion
import PointAndClick.Proofs.Play.Ledger

/-!
# What is kept up

A property of sessions and of what is still to do in them may break off in the middle of a step, but
not between two. `Session.Upkeep` says what has to be shown of such a property, once for each thing
that can happen: a step on a stack, what a user does at once, the beginnings of a list, of a change
of scene and of a tick. It then holds after whatever moves a machine makes (`Machine.upkept_after`),
of the session and of what runs in it, while this is paused, or of the session and nothing to do.
-/

set_option autoImplicit false

namespace PointAndClick

namespace Session

/-- How it goes on after a step. After a wait it goes on with what is left. -/
def Progress.flow : Progress → Flow
  | .goOn flow _ => flow
  | .wait .. => .going

/-- What is left to do when a run stops. -/
def Halt.left : Halt → List Frame
  | .finished _ => []
  | .waiting _ frames => frames

/-- A property of a session and of what is still to do in it is kept up, as long as users act only
in certain ways and certain things are asked for. -/
structure Upkeep (acts : Machine.Action → Prop) (allows : Work → Prop)
    (I : Session → Flow → List Frame → Prop) : Prop where
  /-- Timers and turns are free, and so is the mark that something is being run. -/
  free {s : Session} {flow : Flow} {frames : List Frame} (timers : TimerTable) (turns : List Turn)
    (executing : Bool) : I s flow frames → I { s with timers, turns, executing } flow frames
  /-- With nothing left to do, a failure makes no difference. -/
  idle {s : Session} {flow : Flow} : I s flow [] → I s .going []
  list {s : Session} (list : List Instruction) : I s .going [] → I s .going [.commands list]
  change {s : Session} {index : Int} {recorded : Bool} {target : Scene} :
    allows (.goToScene index recorded) → s.navigation.scene index = .ok target →
      s.navigation.transitioning = false → I s .going [] →
        I { s with navigation := { s.navigation with transitioning := true } } .going
          [.leaving target.index recorded, .transition]
  tick {s : Session} (id : String) (count : Int) :
    I s .going [] → I (s.told (.event (.timerTick id count))) .going []
  step {s s' : Session} {flow : Flow} {frame : Frame} {frames : List Frame} {p : Progress} :
    Steps s flow frame frames (s', p) → I s flow (frame :: frames) → I s' p.flow p.frames
  plan {s : Session} {frames : List Frame} {a : Machine.Action} :
    acts a → I s .going frames → I (Machine.plan a s).2 .going frames
  asks {s : Session} {a : Machine.Action} {work : Work} {reply : Reply} :
    acts a → (Machine.plan a s).1 = .ok (.ask work reply) → allows work
  ticks (timer : Timer) : allows (.tick timer)

variable {s s' : Session} {acts : Machine.Action → Prop} {allows : Work → Prop}
  {I : Session → Flow → List Frame → Prop}

/-! ## Runs -/

@[simp] theorem executing_told (entry : LogEntry) : (s.told entry).executing = s.executing := by
  unfold told
  split <;> rfl

/-- What is being run is not marked anew by its own steps. -/
theorem executing_step {flow : Flow} {frame : Frame} {frames : List Frame} {p : Progress}
    (h : Steps s flow frame frames (s', p)) : s'.executing = s.executing := by
  cases h with
  | @command i rest _ verb outcome _ hquit hverb hanswer hperform =>
      have hperforms := performs verb i (s.told (executed i))
      rw [hperform] at hperforms
      rw [← executing_told (s := s) (executed i)]
      cases hperforms with
      | fails hserves | done hserves | waits hserves => exact hserves.executing
      | nests hdepth => rfl
      | changes hserves hfree => exact hserves.executing
  | idle | unknown | nested | transition | leaveNone => rfl
  | refused | report | leave => exact executing_told _
  | hidden => exact executing_told (s := s.shown _ _) _
  | unannounced | arrive =>
      exact (executing_told _).trans (executing_told (s := s.shown _ _) _)

/-- A run that has enough steps keeps up what each of them does. -/
theorem Upkeep.runFrames (hI : Upkeep acts allows I) {fuel : Nat} {flow : Flow}
    {frames : List Frame} (hfuel : Toll.steps.ofFrames s frames < fuel) (h : I s flow frames) :
    I (runFrames fuel s flow frames).1 .going (runFrames fuel s flow frames).2.left ∧
      (runFrames fuel s flow frames).1.executing = s.executing := by
  induction fuel generalizing s flow frames with
  | zero => exact absurd hfuel (Nat.not_lt_zero _)
  | succ fuel ih =>
      cases frames with
      | nil =>
          cases flow with
          | going => exact ⟨h, rfl⟩
          | failing e => exact ⟨hI.idle h, rfl⟩
      | cons frame frames =>
          have hsteps := steps s flow frame frames
          simp only [Session.runFrames]
          rcases hstep : s.step flow frame frames with ⟨s', p⟩
          rw [hstep] at hsteps
          have hnext : I s' p.flow p.frames := hI.step hsteps h
          have hsame : s'.executing = s.executing := executing_step hsteps
          cases p with
          | wait duration frames' => exact ⟨hnext, hsame⟩
          | goOn flow' frames' =>
              have hless := cost_step_lt hstep
              have hcost := Nat.lt_of_lt_of_le hless (Nat.le_of_lt_succ hfuel)
              obtain ⟨hrun, hrunning⟩ := ih hcost hnext
              exact ⟨hrun, hrunning.trans hsame⟩

theorem Upkeep.run (hI : Upkeep acts allows I) {frames : List Frame} (h : I s .going frames) :
    I (s.run .going frames).1 .going (s.run .going frames).2.left ∧
      (s.run .going frames).1.executing = s.executing :=
  hI.runFrames (cost_lt_stackSteps s frames) h

/-! ## What a user does at once -/

/-- Nothing begins: the nesting and the mark that something is being run are as they were, and no
change of scene is under way that was not. -/
structure Spares (s s' : Session) : Prop where
  executing : s'.executing = s.executing
  depth : s'.depth = s.depth
  transitioning : s'.navigation.transitioning = true → s.navigation.transitioning = true

theorem spares_of_eq (hexecuting : s'.executing = s.executing) (hdepth : s'.depth = s.depth)
    (htransitioning : s'.navigation.transitioning = s.navigation.transitioning) : Spares s s' :=
  ⟨hexecuting, hdepth, fun h => htransitioning ▸ h⟩

theorem attends_spares : Attends Spares where
  refl _ := spares_of_eq rfl rfl rfl
  trans h h' := ⟨h'.executing.trans h.executing, h'.depth.trans h.depth,
    fun hchanging => h.transitioning (h'.transitioning hchanging)⟩
  told s entry _ := by
    unfold told
    split <;> exact spares_of_eq rfl rfl rfl
  hovered _ _ := spares_of_eq rfl rfl rfl
  paused _ _ := spares_of_eq rfl rfl rfl
  pauseTimers _ _ := spares_of_eq rfl rfl rfl
  resumeTimers _ _ := spares_of_eq rfl rfl rfl
  stopTimer _ _ := spares_of_eq rfl rfl rfl
  stopTimers _ := spares_of_eq rfl rfl rfl

/-- A saved state, right or wrong, may end a change of scene. -/
theorem restores_spares : Restores Spares where
  toComposes := attends_spares.toComposes
  values _ _ := spares_of_eq rfl rfl rfl
  navigation state s := by
    obtain ⟨history, place, current, disabled, transitioning, hrestore, hends⟩ :=
      s.navigation.restore_eq state
    rw [hrestore]
    exact ⟨rfl, rfl, hends⟩
  hovered _ := spares_of_eq rfl rfl rfl
  timers _ _ := spares_of_eq rfl rfl rfl
  stopTimers _ := spares_of_eq rfl rfl rfl
  turns _ _ := spares_of_eq rfl rfl rfl

theorem spares_plan (a : Machine.Action) (s : Session) : Spares s (Machine.plan a s).2 :=
  (attends_spares.planAny (fun _ _ => spares_of_eq rfl rfl rfl) fun state _ =>
    restores_spares.restore state s).related

end Session

/-- The move is one that a user may make, or asks for something that may be asked for. -/
def Move.Respects (acts : Machine.Action → Prop) (allows : Work → Prop) : Move → Prop
  | .act a => acts a
  | .ask r => allows r.work
  | _ => True

namespace Machine

open Session

/-- What is left to do for what runs, while it is paused. -/
def left (m : Machine) : List Frame :=
  match m.running with
  | none => []
  | some r => r.frames

/-- A property holds of the session and of what is left to do in it, what waits for the lock is
allowed, and the mark that something is being run is right. -/
structure Upkept (allows : Work → Prop) (I : Session → Flow → List Frame → Prop) (m : Machine) :
    Prop where
  executing : m.session.executing = m.running.isSome
  queue : ∀ r ∈ m.queue, allows r.work
  holds : I m.session .going m.left

variable {acts : Action → Prop} {allows : Work → Prop} {I : Session → Flow → List Frame → Prop}
  {m m' : Machine} {owner : Owner}

theorem left_of_running {r : Running} (h : m.running = some r) : m.left = r.frames := by
  unfold left
  rw [h]

theorem left_of_free (h : m.running = none) : m.left = [] := by
  unfold left
  rw [h]

/-- The end of a call changes of the session only its timers, its turns and the mark. -/
theorem finish_session (m : Machine) (owner : Owner) (result : Except Fault Reply) :
    ∃ timers turns, (m.finish owner result).session =
      { m.session with timers, turns, executing := false } := by
  unfold finish
  cases owner with
  | user job =>
      dsimp only
      split <;> exact ⟨_, _, rfl⟩
  | timer serial =>
      dsimp only
      split <;> exact ⟨_, _, rfl⟩

section

variable (hI : Upkeep acts allows I)
include hI

/-! ## Calls -/

theorem upkept_finish (hqueue : ∀ r ∈ m.queue, allows r.work) (h : I m.session .going [])
    (result : Except Fault Reply) : Upkept allows I (m.finish owner result) := by
  obtain ⟨timers, turns, hsession⟩ := finish_session m owner result
  constructor
  · rw [hsession, finish_running]
    rfl
  · rw [finish_queue]
    exact hqueue
  · rw [left_of_free (finish_running result), hsession]
    exact hI.free timers turns false h

theorem upkept_halt (hqueue : ∀ r ∈ m.queue, allows r.work) {s : Session} {halt : Halt}
    (h : I s .going halt.left) (hexecuting : s.executing = true) (reply : Reply) :
    Upkept allows I (m.halt owner reply (s, halt)) := by
  cases halt with
  | finished result =>
      cases result with
      | ok _ => exact upkept_finish hI (m := { m with session := s }) hqueue h _
      | error e => exact upkept_finish hI (m := { m with session := s }) hqueue h _
  | waiting duration frames =>
      unfold halt
      dsimp only
      split
      · exact ⟨hexecuting, hqueue, h⟩
      · refine ⟨hexecuting, hqueue, ?_⟩
        exact hI.free s.timers (s.turns ++ [.resume]) s.executing h

theorem upkept_runFrames (hqueue : ∀ r ∈ m.queue, allows r.work)
    (hexecuting : m.session.executing = true) {frames : List Frame} (h : I m.session .going frames)
    (reply : Reply) : Upkept allows I (m.runFrames owner reply frames) := by
  obtain ⟨hrun, hsame⟩ := hI.run h
  rw [runFrames_eq_halt]
  exact upkept_halt hI hqueue hrun (hsame.trans hexecuting) reply

theorem upkept_start (hqueue : ∀ r ∈ m.queue, allows r.work) {r : Request} (hr : allows r.work)
    (h : I m.session .going []) : Upkept allows I (m.start r) := by
  have hbegun : I m.executing.session .going [] :=
    hI.free m.session.timers m.session.turns true h
  unfold start
  split
  · rename_i list _
    exact upkept_runFrames hI (m := m.executing) hqueue rfl (hI.list list hbegun) r.reply
  · rename_i index recorded hwork
    rw [hwork] at hr
    dsimp only
    rw [changeScene_apply]
    cases hscene : m.executing.session.navigation.scene index with
    | error e => exact upkept_finish hI (m := m.executing) hqueue hbegun _
    | ok target =>
        dsimp only
        by_cases hchanging : m.executing.session.navigation.transitioning = true
        · rw [if_pos hchanging]
          exact upkept_finish hI (m := m.executing) hqueue hbegun _
        · rw [if_neg hchanging]
          have hchange := hI.change hr hscene (by simpa using hchanging) hbegun
          refine upkept_runFrames hI ?_ ?_ hchange (.flag true)
          · exact hqueue
          · rfl
  · rename_i timer _
    split
    · exact upkept_finish hI hqueue h _
    · have htick := hI.tick timer.id timer.tickCount hbegun
      have hexecuting := executing_told (s := m.executing.session)
        (.event (.timerTick timer.id timer.tickCount))
      have hstarted := hI.list timer.commands htick
      dsimp only
      rw [emit, tell_apply]
      generalize m.executing.session.told (.event (.timerTick timer.id timer.tickCount)) = s at *
      cases m.executing.session.answer _ with
      | error e => exact upkept_finish hI (m := { m with session := s }) hqueue htick _
      | ok _ =>
          exact upkept_runFrames hI (m := { m with session := s }) hqueue hexecuting hstarted
            r.reply

theorem Upkept.request (h : Upkept allows I m) {r : Request} (hr : allows r.work) :
    Upkept allows I (m.request r) := by
  unfold Machine.request
  split
  · rename_i hfree
    rw [Bool.and_eq_true, Option.isNone_iff_eq_none] at hfree
    have hholds := h.holds
    rw [left_of_free hfree.1] at hholds
    exact upkept_start hI h.queue hr hholds
  · refine ⟨h.executing, ?_, h.holds⟩
    intro r' hr'
    rcases List.mem_append.mp hr' with hold | hnew
    · exact h.queue r' hold
    · rw [List.mem_singleton.mp hnew]
      exact hr

theorem Upkept.goOn (h : Upkept allows I m) : Upkept allows I m.goOn := by
  unfold Machine.goOn
  split
  · exact h
  · rename_i r hrunning
    have hholds := h.holds
    rw [left_of_running hrunning] at hholds
    have hexecuting := h.executing
    rw [hrunning] at hexecuting
    exact upkept_runFrames hI (m := { m with running := none }) h.queue hexecuting hholds r.reply

/-! ## Moves -/

/-- Timers and turns are free. -/
theorem Upkept.aside (h : Upkept allows I m) (hrunning : m'.running = m.running)
    (hqueue : m'.queue = m.queue)
    (hsession : ∃ timers turns, m'.session = { m.session with timers, turns }) :
    Upkept allows I m' := by
  obtain ⟨timers, turns, hsession⟩ := hsession
  have hleft : m'.left = m.left := by
    unfold left
    rw [hrunning]
  constructor
  · rw [hsession, hrunning]
    exact h.executing
  · rw [hqueue]
    exact h.queue
  · rw [hleft, hsession]
    exact hI.free timers turns m.session.executing h.holds

theorem Upkept.tick (h : Upkept allows I m) (serial : Nat) : Upkept allows I (m.tick serial) := by
  have hcount : Upkept allows I (m.tickCall serial).1 := h.aside hI rfl rfl ⟨_, _, rfl⟩
  unfold Machine.tick
  dsimp only
  split
  · exact hcount
  · rename_i timer _
    exact hcount.request hI (hI.ticks timer)

theorem Upkept.act (h : Upkept allows I m) {a : Action} (ha : acts a) :
    Upkept allows I (answer (m.enter a)) := by
  have hplan := hI.plan ha h.holds
  have hexecuting := (spares_plan a m.session).executing
  have hasks {work : Work} {reply : Reply} :
      (plan a m.session).1 = .ok (.ask work reply) → allows work := hI.asks ha
  unfold enter
  dsimp only
  rcases hact : plan a m.session with ⟨outcome, s⟩
  rw [hact] at hplan hexecuting hasks
  have hdone : ∀ m₁ : Machine, m₁.running = m.running → m₁.queue = m.queue → m₁.session = s →
      Upkept allows I m₁ := by
    rintro m₁ hrunning hqueue rfl
    have hleft : m₁.left = m.left := by
      unfold left
      rw [hrunning]
    refine ⟨?_, hqueue ▸ h.queue, hleft ▸ hplan⟩
    rw [hexecuting, hrunning]
    exact h.executing
  rcases outcome with e | reply | ⟨work, reply⟩
  · exact hdone _ rfl rfl rfl
  · exact hdone _ rfl rfl rfl
  · have hsame : Upkept allows I { m with nextJob := m.nextJob + 1, session := s } :=
      hdone _ rfl rfl rfl
    exact hsame.request hI (hasks rfl)

theorem Upkept.take (h : Upkept allows I m) {t : Turn}
    (hgrant : t = .grant → m.running = none) : Upkept allows I (m.take t) := by
  cases t with
  | beginTimer serial =>
      simp only [Machine.take]
      split
      · exact h.aside hI rfl rfl ⟨_, _, rfl⟩
      · exact h
  | tickTimer serial =>
      simp only [Machine.take]
      split
      · exact h.tick hI serial
      · exact h
  | grant =>
      have hholds := h.holds
      rw [left_of_free (hgrant rfl)] at hholds
      have hqueue := h.queue
      simp only [Machine.take]
      split
      · exact h
      · rename_i r rest hcons
        rw [hcons, List.forall_mem_cons] at hqueue
        exact upkept_start hI (m := { m with queue := rest }) hqueue.2 hqueue.1 hholds
  | resume => exact h.goOn hI

theorem Upkept.wake (h : Upkept allows I m) (d : Due) : Upkept allows I (m.wake d) := by
  have hlater : Upkept allows I { m with now := max m.now d.time } :=
    h.aside hI rfl rfl ⟨_, _, rfl⟩
  unfold Machine.wake
  dsimp only
  split
  · exact hlater.goOn hI
  · split
    · exact h.aside hI rfl rfl ⟨_, _, rfl⟩
    · exact hlater.tick hI _

/-- What a move does, step by step, is kept up. A turn that hands on the lock is there only while
the lock is free. -/
theorem Upkept.move (h : Upkept allows I m) (hlocks : m.Locks) {move : Move}
    (hmove : move.Respects acts allows) : Upkept allows I (m.move move) := by
  cases move with
  | act a => exact h.act hI hmove
  | ask r => exact h.request hI hmove
  | turn t =>
      simp only [Machine.move]
      split
      · rename_i hmem
        have hdrop : Upkept allows I (m.dropTurn t) := h.aside hI rfl rfl ⟨_, _, rfl⟩
        refine hdrop.take hI ?_
        rintro rfl
        exact (hlocks.of_grant_mem hmem).1
      · exact h
  | wake d => exact h.wake hI d
  | pass time => exact h.aside hI rfl rfl ⟨_, _, rfl⟩

/-- What is kept up in every move holds after whatever moves. -/
theorem upkept_after {l : Ledger} (hfair : l.Fair) (h : Upkept allows I l.machine)
    {moves : List Move} (hmoves : ∀ move ∈ moves, move.Respects acts allows) :
    Upkept allows I (l.after moves).machine := by
  induction moves generalizing l with
  | nil => exact h
  | cons move moves ih =>
      obtain ⟨hmove, hmoves⟩ := List.forall_mem_cons.mp hmoves
      refine ih (hfair.move move) ?_ hmoves
      rw [Ledger.machine_move hfair move]
      exact h.move hI hfair.locks hmove

end

end Machine

end PointAndClick
