import PointAndClick.Proofs.Play.Clockwork
import PointAndClick.Proofs.Play.Completion

/-!
# Every instant ends

At one instant a machine can do only so much: what runs, what waits in the queue, and the timers
that were resumed have a number of steps left, and each turn that leads to more uses up some of
them (`Machine.pending_takeFirst`). So all turns of the present instant are taken
(`Machine.turns_settle`).

Work for a call spends the steps of that call (`Machine.Spends`): it is done, and a user is told, or
it is paused with fewer steps left.
-/

set_option autoImplicit false

namespace PointAndClick

namespace Session

variable {s s' : Session}

/-! ## Lists bring no instant to last longer -/

/-- The project is the same, and no timer was resumed. -/
structure Eases (s s' : Session) : Prop where
  scenes : s'.navigation.scenes = s.navigation.scenes
  woken (w : Timer → Nat) (hw : ∀ x, x.phase ≠ .woken → w x = 0) :
    s'.timers.weight w ≤ s.timers.weight w

theorem eases_of_eq (hscenes : s'.navigation.scenes = s.navigation.scenes)
    (htimers : s'.timers = s.timers) : Eases s s' :=
  ⟨hscenes, fun _ _ => by rw [htimers]⟩

theorem composes_eases : Composes Eases where
  refl _ := eases_of_eq rfl rfl
  trans h h' :=
    ⟨h'.scenes.trans h.scenes, fun w hw => Nat.le_trans (h'.woken w hw) (h.woken w hw)⟩

theorem eases_told (s : Session) (entry : LogEntry) : Eases s (s.told entry) := by
  unfold told
  split
  · exact eases_of_eq rfl rfl
  · exact composes_eases.refl s

theorem handles_eases : Handles Eases where
  toComposes := composes_eases
  told s entry _ _ := eases_told s entry
  write := composes_eases.write (fun _ _ => eases_of_eq rfl rfl) fun s _ _ => eases_told s _
  font _ _ := eases_of_eq rfl rfl
  disabled _ _ := eases_of_eq rfl rfl
  startTimer id interval commands s := by
    refine ⟨rfl, fun w hw => ?_⟩
    exact TimerTable.weight_start_le (fun x hx => hw x (by rw [hx]; nofun)) id interval commands 0
  stopTimer id s := ⟨rfl, fun _ _ => TimerTable.weight_stop_le id⟩
  depth _ _ := eases_of_eq rfl rfl
  begins _ := eases_of_eq rfl rfl
  navigate := composes_eases.navigate (fun _ => eases_of_eq rfl rfl)
    (fun _ _ => eases_of_eq rfl rfl) fun s _ => eases_told s _

theorem eases_step (s : Session) (flow : Flow) (frame : Frame) (frames : List Frame) :
    Eases s (s.step flow frame frames).1 := by
  have hshown (target : Nat) (recorded : Bool) : Eases s (s.shown target recorded) := by
    refine eases_of_eq ?_ rfl
    unfold shown Navigation.enter Navigation.record
    split <;> rfl
  have htold {s' : Session} (h : Eases s s') (entry : LogEntry) : Eases s (s'.told entry) :=
    composes_eases.trans h (eases_told s' entry)
  have hsteps := steps s flow frame frames
  generalize s.step flow frame frames = out at hsteps
  cases hsteps with
  | idle | unknown | leaveNone => exact composes_eases.refl s
  | refused | report | leave => exact eases_told s _
  | @command i rest frames verb outcome s' hquit hverb hanswer hperform =>
      have hcommand := handles_eases.performAny (fun _ => eases_of_eq rfl rfl) verb i
        (s.told (executed i))
      rw [hperform] at hcommand
      exact composes_eases.trans (eases_told s _) hcommand
  | nested => exact eases_of_eq rfl rfl
  | transition => exact eases_of_eq rfl rfl
  | hidden => exact htold (hshown _ _) _
  | unannounced | arrive => exact htold (htold (hshown _ _) _) _

theorem eases_run (flow : Flow) (frames : List Frame) : Eases s (s.run flow frames).1 :=
  composes_eases.run eases_step s flow frames

/-- A run that stops at a pause has used up some of its steps. -/
theorem cost_run_lt {flow : Flow} {frames frames' : List Frame} {duration : Nat}
    (h : s.run flow frames = (s', .waiting duration frames')) :
    Toll.steps.ofFrames s' frames' < Toll.steps.ofFrames s frames := by
  unfold run at h
  revert h
  fun_induction runFrames (s.stackSteps frames) s flow frames with
  | case1 | case2 | case3 =>
      intro h
      cases h
  | case4 fuel s flow frame frames s₁ duration₁ frames₁ hstep =>
      intro h
      cases h
      exact cost_step_lt hstep
  | case5 fuel s flow frame frames s₁ flow₁ frames₁ hstep ih =>
      exact fun h => Nat.lt_trans (ih h) (cost_step_lt hstep)

end Session

namespace Machine

open Session

variable {m m' : Machine} {owner : Owner} {steps : Nat}

/-! ## What is left to do -/

/-- The steps that are left of what runs, and one more for its end. -/
def stepsLeft (m : Machine) : Nat :=
  match m.running with
  | none => 0
  | some r => Toll.steps.ofFrames m.session r.frames + 1

/-- The steps that can be made at the present instant at most. -/
def pending (m : Machine) : Nat := m.stepsLeft + m.queueSteps + wokenSteps m.session

theorem stepsOf_congr {s s' : Session} (h : s'.navigation.scenes = s.navigation.scenes) :
    stepsOf s' = stepsOf s := by
  funext work
  cases work <;>
    · simp only [stepsOf, stackSteps, frameSteps, commandSteps, longestExit, longestEntry,
        greatest, h]

theorem stepsLeft_le_runningSteps (m : Machine) : m.stepsLeft ≤ m.runningSteps := by
  unfold stepsLeft runningSteps
  cases m.running with
  | none => exact Nat.le_refl 0
  | some r => exact cost_lt_stackSteps m.session r.frames

theorem wokenSteps_eases {s s' : Session} (h : Eases s s') : wokenSteps s' ≤ wokenSteps s := by
  unfold wokenSteps
  rw [stepsOf_congr h.scenes]
  exact h.woken _ fun x hx => if_neg hx

theorem queueSteps_eases (hqueue : m'.queue = m.queue) (h : Eases m.session m'.session) :
    m'.queueSteps = m.queueSteps := by
  unfold queueSteps
  rw [hqueue, stepsOf_congr h.scenes]

/-! ## Work for a call -/

/-- Work for a call has ended, and a user was told, or it is paused: it goes on at a later time or
with a turn of the present instant. -/
inductive Outcome (owner : Owner) (m m' : Machine) : Prop
  | ended (hrunning : m'.running = none)
      (htold : ∀ job, owner = .user job → (m'.result? job).isSome)
  | paused {r : Running} (hrunning : m'.running = some r) (howner : r.owner = owner)
      (hlater : ∀ wake, r.wake = some wake → m.now < wake.1)
      (hsoon : r.wake = none → .resume ∈ m'.session.turns)

/-- The machine has worked for a call that had some steps left, and spent some of them. -/
structure Spends (owner : Owner) (steps : Nat) (m m' : Machine) : Prop where
  eases : Eases m.session m'.session
  queue : m'.queue = m.queue
  results : ∃ more, m'.results = m.results ++ more
  left : m'.stepsLeft < steps
  outcome : m.Outcome owner m'

theorem Spends.mono {more : Nat} (h : Spends owner steps m m') (hle : steps ≤ more) :
    Spends owner more m m' :=
  { h with left := Nat.lt_of_lt_of_le h.left hle }

/-- What is done with the session before the work brings no instant to last longer. -/
theorem Spends.of_session {s : Session} (h : Spends owner steps { m with session := s } m')
    (heases : Eases m.session s) : Spends owner steps m m' where
  eases := composes_eases.trans heases h.eases
  queue := h.queue
  results := h.results
  left := h.left
  outcome := by
    cases h.outcome with
    | ended hrunning htold => exact .ended hrunning htold
    | paused hrunning howner hlater hsoon => exact .paused hrunning howner hlater hsoon

theorem eases_beginWait (m : Machine) (serial : Nat) :
    Eases m.session (m.beginWait serial).session := by
  refine ⟨rfl, fun w hw => TimerTable.weight_update_le fun x => ?_⟩
  rw [hw]
  · exact Nat.zero_le _
  · dsimp only
    split <;> nofun

theorem eases_finish (result : Except Fault Reply) :
    Eases m.session (m.finish owner result).session := by
  unfold finish
  cases owner with
  | user job =>
      dsimp only
      split <;> exact eases_of_eq rfl rfl
  | timer serial =>
      refine composes_eases.trans ?_ (eases_beginWait _ serial)
      dsimp only
      split <;> exact eases_of_eq rfl rfl

theorem result?_append {more : List (Nat × Except Fault Reply)} {job : Nat}
    (hresults : m'.results = m.results ++ more) (h : (m.result? job).isSome) :
    (m'.result? job).isSome := by
  unfold result? at h ⊢
  rw [hresults, List.lookup_append]
  cases hfound : m.results.lookup job with
  | none => rw [hfound] at h; nomatch h
  | some result => rfl

theorem finish_results (result : Except Fault Reply) :
    (∃ more, (m.finish owner result).results = m.results ++ more) ∧
      ∀ job, owner = .user job → ((m.finish owner result).result? job).isSome := by
  unfold finish result?
  cases owner with
  | user job =>
      have hlast : ((m.results ++ [(job, result)]).lookup job).isSome := by
        rw [List.lookup_append, List.lookup_cons_self]
        cases m.results.lookup job <;> rfl
      have hresults (m' : Machine) (h : m'.results = m.results) :
          (∃ more, m'.results ++ [(job, result)] = m.results ++ more) ∧
            ∀ job', Owner.user job = .user job' →
              ((m'.results ++ [(job, result)]).lookup job').isSome := by
        rw [h]
        exact ⟨⟨_, rfl⟩, fun job' hjob => by cases hjob; exact hlast⟩
      dsimp only
      split <;> exact hresults _ rfl
  | timer serial =>
      refine ⟨⟨[], ?_⟩, fun job hjob => nomatch hjob⟩
      rw [List.append_nil]
      dsimp only [beginWait]
      split <;> rfl

theorem spends_finish (result : Except Fault Reply) (hsteps : 0 < steps) :
    Spends owner steps m (m.finish owner result) where
  eases := eases_finish result
  queue := finish_queue result
  results := (finish_results result).1
  left := by
    unfold stepsLeft
    rw [finish_running]
    exact hsteps
  outcome := .ended (finish_running result) (finish_results result).2

theorem spends_runFrames (reply : Reply) (frames : List Frame) :
    Spends owner (Toll.steps.ofFrames m.session frames + 1) m
      (m.runFrames owner reply frames) := by
  have heases := eases_run (s := m.session) .going frames
  unfold runFrames
  split
  · rename_i s hrun
    rw [hrun] at heases
    exact Spends.of_session (spends_finish _ (Nat.succ_pos _)) heases
  · rename_i s e hrun
    rw [hrun] at heases
    exact Spends.of_session (spends_finish _ (Nat.succ_pos _)) heases
  · rename_i s duration frames' hrun
    rw [hrun] at heases
    have hcost := Nat.succ_lt_succ (cost_run_lt hrun)
    split
    · rename_i hpositive
      refine ⟨heases, rfl, ⟨[], (List.append_nil _).symm⟩, hcost, .paused rfl rfl ?_ nofun⟩
      rintro wake ⟨⟩
      exact Nat.lt_add_of_pos_right hpositive
    · refine ⟨composes_eases.trans heases (eases_of_eq rfl rfl), rfl,
        ⟨[], (List.append_nil _).symm⟩, hcost, .paused rfl rfl nofun fun _ => ?_⟩
      exact List.mem_append_right _ List.mem_cons_self

/-- A call that gets the lock makes at least one of the steps that it takes at most. -/
theorem spends_start (r : Request) :
    Spends r.owner (stepsOf m.session r.work) m (m.start r) := by
  have hexecuting : Eases m.session m.executing.session := eases_of_eq rfl rfl
  have hpositive : 0 < stepsOf m.session r.work := by
    cases r.work <;> exact Nat.lt_of_le_of_lt (Nat.zero_le _) (cost_lt_stackSteps _ _)
  unfold start
  split
  · rename_i list hwork
    refine Spends.of_session (m := m) ?_ hexecuting
    exact (spends_runFrames r.reply _).mono (hwork ▸ cost_lt_stackSteps m.executing.session _)
  · rename_i index recorded hwork
    refine Spends.of_session (m := m) ?_ hexecuting
    have hchange := changeScene_apply index recorded m.executing.session
    have heases := handles_eases.toComposes.changeScene (fun _ => eases_of_eq rfl rfl) index
      recorded m.executing.session
    dsimp only
    rcases hact : Session.changeScene index recorded m.executing.session with ⟨outcome, s⟩
    rw [hact] at heases hchange
    have hend (result : Except Fault Reply) : Spends r.owner (stepsOf m.session r.work)
        m.executing (({ m.executing with session := s } : Machine).finish r.owner result) :=
      (spends_finish result hpositive).of_session heases
    rcases outcome with e | (_ | frames)
    · exact hend _
    · exact hend _
    · refine Spends.of_session (m := m.executing) ?_ heases
      refine (spends_runFrames (.flag true) frames).mono ?_
      -- a change takes as many steps to any scene
      have hsteps : s.stackSteps frames = stepsOf m.session r.work := by
        rw [hwork]
        split at hchange
        · nomatch hchange
        · split at hchange
          · nomatch hchange
          · cases hchange
            rfl
      exact hsteps ▸ cost_lt_stackSteps s frames
  · rename_i timer hwork
    split
    · exact spends_finish _ hpositive
    · refine Spends.of_session (m := m) ?_ hexecuting
      have htold := eases_told m.executing.session (.event (.timerTick timer.id timer.tickCount))
      dsimp only
      rw [Session.emit, tell_apply]
      cases m.executing.session.answer _ with
      | error e => exact (spends_finish _ hpositive).of_session htold
      | ok _ =>
          refine Spends.of_session (m := m.executing) ?_ htold
          refine (spends_runFrames r.reply _).mono ?_
          have hsteps : stackSteps (m.executing.session.told
              (.event (.timerTick timer.id timer.tickCount))) [.commands timer.commands] =
              stepsOf m.session r.work := by
            rw [hwork]
            exact congrFun (stepsOf_congr htold.scenes) (.tick timer)
          exact hsteps ▸ cost_lt_stackSteps _ _

theorem spends_goOn {r : Running} (hrunning : m.running = some r) :
    Spends r.owner m.stepsLeft m m.goOn := by
  have hwork : Spends r.owner _ { m with running := none }
      ({ m with running := none }.runFrames r.owner r.reply r.frames) :=
    spends_runFrames r.reply r.frames
  have hleft : m.stepsLeft = Toll.steps.ofFrames m.session r.frames + 1 := by
    unfold stepsLeft
    rw [hrunning]
  unfold goOn
  rw [hrunning, hleft]
  exact ⟨hwork.eases, hwork.queue, hwork.results, hwork.left, by
    cases hwork.outcome with
    | ended hrunning htold => exact .ended hrunning htold
    | paused hrunning howner hlater hsoon => exact .paused hrunning howner hlater hsoon⟩

theorem Spends.pending_lt (h : Spends owner steps m m') :
    m'.pending < steps + m.queueSteps + wokenSteps m.session := by
  have hleft := h.left
  have hqueue := queueSteps_eases h.queue h.eases
  have hwoken := wokenSteps_eases h.eases
  unfold pending
  omega

/-! ## Turns -/

theorem queueSteps_cons {r : Request} {rest : List Request} (h : m.queue = r :: rest) :
    m.queueSteps =
      stepsOf m.session r.work + queueSteps { m with queue := rest } := by
  unfold queueSteps
  rw [h]
  rfl

theorem pending_enqueue (m : Machine) (r : Request) :
    pending { m with queue := m.queue ++ [r] } = m.pending + stepsOf m.session r.work := by
  have hqueue : queueSteps { m with queue := m.queue ++ [r] } =
      m.queueSteps + stepsOf m.session r.work := by
    show ((m.queue ++ [r]).map fun r => stepsOf m.session r.work).sum =
      (m.queue.map fun r => stepsOf m.session r.work).sum + stepsOf m.session r.work
    rw [List.map_append, List.sum_append, List.map_singleton, List.sum_singleton]
  have hleft : stepsLeft { m with queue := m.queue ++ [r] } = m.stepsLeft := rfl
  unfold pending
  rw [hqueue, hleft]
  dsimp only
  omega

/-- What is asked for starts and spends a step, or waits in the queue. -/
theorem pending_request (m : Machine) (r : Request) :
    (m.request r).pending < m.pending + stepsOf m.session r.work ∨
      (m.request r).pending = m.pending + stepsOf m.session r.work ∧
        (m.request r).session.turns = m.session.turns := by
  unfold request
  split
  · have hless := (spends_start (m := m) r).pending_lt
    unfold pending at *
    omega
  · exact .inr ⟨pending_enqueue m r, rfl⟩

/-- A timer that comes due and is there asks for the lock. -/
theorem tick_eq_request {serial : Nat} {x : Timer}
    (h : m.session.timers.bySerial? serial = some x) :
    m.tick serial = (m.tickCall serial).1.request x.call := by
  have hserial := (TimerTable.mem_of_bySerial? h).2
  have hfound : (m.session.timers.beginTick serial).bySerial? serial = some x.comeDue :=
    (TimerTable.bySerial?_update Timer.comeDue fun _ => rfl).trans
      (congrArg (Option.map Timer.comeDue) h)
  rw [tick_eq_answer]
  unfold answer tickCall
  dsimp only
  rw [hfound, ← hserial]
  rfl

/-- A timer that was resumed and ticks asks for no more steps than were left for it. -/
theorem pending_tick {serial : Nat} (h : m.isIn serial .woken = true) :
    (m.tick serial).pending < m.pending ∨
      (m.tick serial).pending ≤ m.pending ∧ (m.tick serial).session.turns = m.session.turns := by
  obtain ⟨x, hfound, hwoken⟩ : ∃ x, m.session.timers.bySerial? serial = some x ∧
      x.phase = .woken := by
    simpa [isIn, Option.any_eq_true] using h
  obtain ⟨hx, hserial⟩ := TimerTable.mem_of_bySerial? hfound
  have hlighter : wokenSteps (m.tickCall serial).1.session + stepsOf m.session x.call.work ≤
      wokenSteps m.session := by
    let w (x : Timer) : Nat := if x.phase = .woken then stepsOf m.session (.tick x) else 0
    have hle : (m.session.timers.beginTick serial).weight w + w x ≤ m.session.timers.weight w :=
      TimerTable.weight_update_add_le hx hserial fun _ => if_neg nofun
    have hsteps : w x = stepsOf m.session x.call.work := if_pos hwoken
    rw [hsteps] at hle
    exact hle
  have hpending : (m.tickCall serial).1.pending + wokenSteps m.session =
      m.pending + wokenSteps (m.tickCall serial).1.session := Nat.add_right_comm ..
  have hsteps : stepsOf (m.tickCall serial).1.session x.call.work =
      stepsOf m.session x.call.work := rfl
  rw [tick_eq_request hfound]
  rcases pending_request (m.tickCall serial).1 x.call with hless | ⟨heq, hturns⟩
  · exact .inl (by omega)
  · exact .inr ⟨by omega, hturns⟩

/-- Each turn that leads to more uses up some of the steps that can be made. -/
theorem pending_takeFirst {t : Turn} {rest : List Turn} (h : m.session.turns = t :: rest) :
    m.takeFirst.pending < m.pending ∨
      m.takeFirst.pending ≤ m.pending ∧ m.takeFirst.session.turns = rest := by
  let m' : Machine := { m with session := { m.session with turns := rest } }
  have htake : m.takeFirst = m'.take t := by
    unfold takeFirst
    rw [h]
  have hsame : m'.pending = m.pending := rfl
  rw [htake]
  cases t with
  | beginTimer serial =>
      refine .inr ?_
      simp only [take]
      split
      · have hwoken := wokenSteps_eases (eases_beginWait m' serial)
        exact ⟨hsame ▸ Nat.add_le_add_left hwoken _, rfl⟩
      · exact ⟨Nat.le_of_eq hsame, rfl⟩
  | tickTimer serial =>
      simp only [take]
      split
      · rename_i hwoken
        exact hsame ▸ pending_tick hwoken
      · exact .inr ⟨Nat.le_of_eq hsame, rfl⟩
  | grant =>
      simp only [take]
      split
      · exact .inr ⟨Nat.le_of_eq hsame, rfl⟩
      · rename_i r waiting hqueue
        refine .inl ?_
        have hless := (spends_start (m := { m' with queue := waiting }) r).pending_lt
        have hcons := queueSteps_cons hqueue
        unfold pending at hsame ⊢
        unfold pending at hless
        dsimp only at *
        omega
  | resume =>
      simp only [take]
      cases hrunning : m'.running with
      | none =>
          have hidle : m'.goOn = m' := by
            unfold goOn
            rw [hrunning]
          rw [hidle]
          exact .inr ⟨Nat.le_of_eq hsame, rfl⟩
      | some r =>
          have hless := (spends_goOn hrunning).pending_lt
          exact .inl (hsame ▸ hless)

theorem settles_schedule : schedule.Settles pending where
  le m := Nat.add_le_add_right
    (Nat.add_le_add_right (stepsLeft_le_runningSteps m) _) _
  idle m h := by
    have hnil : m.session.turns = [] := List.length_eq_zero_iff.mp h
    show m.takeFirst = m
    unfold takeFirst
    rw [hnil]
  take m h := by
    obtain ⟨t, rest, hturns⟩ := List.exists_cons_of_ne_nil
      (fun hnil : m.session.turns = [] => h (List.length_eq_zero_iff.mpr hnil))
    rcases pending_takeFirst hturns with hless | ⟨hle, hrest⟩
    · exact .inl hless
    · refine .inr ⟨hle, ?_⟩
      show m.takeFirst.session.turns.length + 1 = m.session.turns.length
      rw [hrest, hturns, List.length_cons]

/-- **Every instant ends.** However many turns lead to more turns, all are taken: lists and changes
of scene that go on after pauses of no time, calls that get the lock one after another, and timers
that were resumed. -/
theorem turns_settle (m : Machine) : (schedule.settle m).session.turns = [] :=
  List.length_eq_zero_iff.mp (settles_schedule.turns_settle m)

end Machine

end PointAndClick
