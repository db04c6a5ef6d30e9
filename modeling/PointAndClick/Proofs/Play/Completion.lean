import PointAndClick.Proofs.Play.Pauses
import PointAndClick.Proofs.Play.Toll

/-!
# Every call completes

`Session.Ends` says that what is on a stack is worked off in the end, whatever is done in its
pauses, and what is true then. Each step uses up a toll of one (`Session.Toll.step_le`), so every
stack ends. `Machine.Completes` says the same of a call that a machine has started; a machine works
off a stack in runs from pause to pause, and no run is cut short by its number of steps
(`Session.run_add`).

With a toll on commands alone, the same bound says how many commands a call executes
(`Machine.start_commands_completes`).
-/

set_option autoImplicit false

namespace PointAndClick

/-- What is left when all frames are worked off. -/
def Session.Flow.result : Session.Flow → Except Fault Unit
  | .going => .ok ()
  | .failing e => .error e

/-- The entry tells that a command is executed. -/
def LogEntry.isExecution : LogEntry → Bool
  | .event (.commandExecute ..) => true
  | _ => false

theorem LogEntry.IsOwn.not_isExecution {changing : Bool} {e : LogEntry} (h : e.IsOwn changing) :
    e.isExecution = false := by
  unfold isExecution
  split
  · exact h.elim
  · rfl

theorem LogEntry.IsOutside.not_isExecution {e : LogEntry} (h : e.IsOutside) :
    e.isExecution = false := by
  unfold isExecution
  split
  · exact h.elim
  · rfl

namespace Session

variable {s s' : Session} {post : Session → Except Fault Unit → Prop}

/-! ## Runs are not cut short -/

/-- One for every step. -/
def Toll.steps : Toll := ⟨1, 1⟩

theorem Toll.ofStep_steps (frame : Frame) : Toll.steps.ofStep frame = 1 := by
  unfold ofStep
  split <;> rfl

theorem Toll.inSession_le_commandSteps (s : Session) :
    Toll.steps.inSession s ≤ s.commandSteps := by
  have hchain : chain s.depth * Toll.steps.ofLink ≤ 68 := by
    show (1 + (16 - s.depth)) * 4 ≤ 68
    omega
  have hlists : (s.longestExit + s.longestEntry) * (chain s.depth * Toll.steps.ofLink) ≤
      (s.longestExit + s.longestEntry) * 68 := Nat.mul_le_mul_left _ hchain
  unfold inSession ofCommand commandSteps
  have hother : Toll.steps.other = 1 := rfl
  split <;> omega

/-- The steps that a stack takes are fewer than it is given. -/
theorem cost_lt_stackSteps (s : Session) (frames : List Frame) :
    Toll.steps.ofFrames s frames < s.stackSteps frames := by
  have hframe : ∀ (s' : Session), s'.navigation.scenes = s.navigation.scenes →
      Toll.steps.ofFrames s' frames < s.stackSteps frames := by
    induction frames with
    | nil => exact fun _ _ => Nat.one_pos
    | cons frame frames ih =>
        intro s' hscenes
        have hexit : s'.longestExit = s.longestExit := by
          unfold longestExit greatest
          rw [hscenes]
        have hentry : s'.longestEntry = s.longestEntry := by
          unfold longestEntry greatest
          rw [hscenes]
        have hcommand : Toll.steps.inSession s' ≤ s.commandSteps := by
          have hle := Toll.inSession_le_commandSteps s'
          unfold commandSteps at hle ⊢
          rwa [hexit, hentry] at hle
        have hother : Toll.steps.other = 1 := rfl
        have hmul (n : Nat) := Nat.mul_le_mul_left n hcommand
        unfold stackSteps frameSteps
        cases frame with
        | commands rest =>
            have hrest := ih s' hscenes
            have hlist := hmul rest.length
            rw [Toll.ofFrames_commands]
            dsimp only
            omega
        | guarded i =>
            have hrest := ih s' hscenes
            rw [Toll.ofFrames_guarded]
            dsimp only
            omega
        | nested =>
            have hrest := ih { s' with depth := s'.depth - 1 } hscenes
            rw [Toll.ofFrames_nested]
            dsimp only
            omega
        | leaving target recorded =>
            have hrest := ih s' hscenes
            have hlists := hmul (s.longestExit + s.longestEntry)
            rw [Toll.ofFrames_leaving, hexit, hentry]
            dsimp only
            omega
        | arriving target recorded =>
            have hrest := ih s' hscenes
            have hlists := hmul s.longestEntry
            rw [Toll.ofFrames_arriving, hentry]
            dsimp only
            omega
        | transition =>
            have hrest := ih { s' with navigation := s'.navigation.endTransition } hscenes
            rw [Toll.ofFrames_transition]
            dsimp only
            omega
  exact hframe s rfl

theorem cost_step_lt {flow : Flow} {frame : Frame} {frames : List Frame} {p : Progress}
    (h : s.step flow frame frames = (s', p)) :
    Toll.steps.ofFrames s' p.frames < Toll.steps.ofFrames s (frame :: frames) := by
  have hsteps := steps s flow frame frames
  rw [h] at hsteps
  have hle := Toll.steps.step_le hsteps
  rw [Toll.ofStep_steps] at hle
  omega

theorem runFrames_add {fuel : Nat} {s : Session} {flow : Flow} {frames : List Frame}
    (h : Toll.steps.ofFrames s frames < fuel) (more : Nat) :
    runFrames (fuel + more) s flow frames = runFrames fuel s flow frames := by
  induction fuel generalizing s flow frames with
  | zero => exact absurd h (Nat.not_lt_zero _)
  | succ fuel ih =>
      rw [Nat.add_right_comm]
      cases frames with
      | nil => cases flow <;> simp only [runFrames]
      | cons frame frames =>
          simp only [runFrames]
          split
          · rfl
          · rename_i s' flow' frames' hstep
            have hless := cost_step_lt hstep
            exact ih (Nat.lt_of_lt_of_le hless (Nat.le_of_lt_succ h))

/-- No run stops because its number of steps is used up. -/
theorem run_add (s : Session) (flow : Flow) (frames : List Frame) (more : Nat) :
    runFrames (s.stackSteps frames + more) s flow frames = s.run flow frames :=
  runFrames_add (cost_lt_stackSteps s frames) more

/-- What holds of each step, or else of a step and the next one together, holds of a run. No run is
cut short between the two. -/
theorem Composes.run_of_pairs {R : Session → Session → Prop} (hR : Composes R)
    (hstep : ∀ (s : Session) (flow : Flow) (frame : Frame) (frames : List Frame),
      R s (s.step flow frame frames).1 ∨
        ∃ s' flow' frame' frames', s.step flow frame frames = (s', .goOn flow' (frame' :: frames')) ∧
          R s (s'.step flow' frame' frames').1)
    (s : Session) (flow : Flow) (frames : List Frame) : R s (s.run flow frames).1 := by
  suffices h : ∀ (fuel : Nat) (s : Session) (flow : Flow) (frames : List Frame),
      Toll.steps.ofFrames s frames < fuel → R s (runFrames fuel s flow frames).1 from
    h _ s flow frames (cost_lt_stackSteps s frames)
  intro fuel
  induction fuel using Nat.strongRecOn with
  | ind fuel ih =>
      intro s flow frames hfuel
      -- once the relation reaches to the end of a step, it goes on from there
      have hafter (fuel' : Nat) (hless : fuel' < fuel) (s₁ : Session) (flow : Flow) (frame : Frame)
          (frames : List Frame) (hcost : Toll.steps.ofFrames s₁ (frame :: frames) ≤ fuel')
          (h : R s (s₁.step flow frame frames).1) :
          R s (runFrames (fuel' + 1) s₁ flow (frame :: frames)).1 := by
        simp only [runFrames]
        split
        · rename_i hnext
          rwa [hnext] at h
        · rename_i s₂ flow₂ frames₂ hnext
          rw [hnext] at h
          have hlater : Toll.steps.ofFrames s₂ frames₂ < Toll.steps.ofFrames s₁ (frame :: frames) :=
            cost_step_lt hnext
          exact hR.trans h (ih fuel' hless s₂ flow₂ frames₂ (by omega))
      cases frames with
      | nil => cases flow <;> cases fuel <;> exact hR.refl s
      | cons frame frames =>
          cases fuel with
          | zero => omega
          | succ fuel =>
              rcases hstep s flow frame frames with hone | ⟨s', flow', frame', frames', hfirst, htwo⟩
              · exact hafter fuel (by omega) s flow frame frames (by omega) hone
              · have hlater : Toll.steps.ofFrames s' (frame' :: frames') <
                    Toll.steps.ofFrames s (frame :: frames) := cost_step_lt hfirst
                simp only [runFrames]
                rw [hfirst]
                dsimp only
                cases fuel with
                | zero => omega
                | succ fuel =>
                    exact hafter fuel (by omega) s' flow' frame' frames' (by omega) htwo

/-! ## Every stack ends -/

/-- A stack is worked off in the end, whatever is done in its pauses; then something is true of the
session and of what is left. -/
inductive Ends (post : Session → Except Fault Unit → Prop) : Session → Flow → List Frame → Prop
  | finished {s : Session} {flow : Flow} (h : post s flow.result) : Ends post s flow []
  | goOn {s s' : Session} {flow flow' : Flow} {frame : Frame} {frames frames' : List Frame}
      (hstep : s.step flow frame frames = (s', .goOn flow' frames'))
      (h : Ends post s' flow' frames') : Ends post s flow (frame :: frames)
  | wait {s s' : Session} {flow : Flow} {frame : Frame} {frames frames' : List Frame}
      {duration : Nat} (hstep : s.step flow frame frames = (s', .wait duration frames'))
      (h : ∀ s'', Meanwhile s' s'' → Ends post s'' .going frames') :
      Ends post s flow (frame :: frames)

theorem Ends.imp {post' : Session → Except Fault Unit → Prop} {flow : Flow} {frames : List Frame}
    (h : Ends post s flow frames) (himp : ∀ s result, post s result → post' s result) :
    Ends post' s flow frames := by
  induction h with
  | finished h => exact .finished (himp _ _ h)
  | goOn hstep _ ih => exact .goOn hstep ih
  | wait hstep _ ih => exact .wait hstep ih

/-- What each step and each pause passes on holds in the end. -/
theorem ends_of_steps {I : Session → Flow → List Frame → Prop}
    (hstep : ∀ s flow frame frames s' p, I s flow (frame :: frames) →
      Steps s flow frame frames (s', p) →
      match p with
      | .goOn flow' frames' => I s' flow' frames'
      | .wait _ frames' => ∀ s'', Meanwhile s' s'' → I s'' .going frames')
    (s : Session) (flow : Flow) (frames : List Frame) (h : I s flow frames) :
    Ends (fun s' result => ∃ flow', result = flow'.result ∧ I s' flow' []) s flow frames := by
  induction hcost : Toll.steps.ofFrames s frames using Nat.strongRecOn
    generalizing s flow frames with
  | ind cost ih =>
      subst hcost
      cases frames with
      | nil => exact .finished ⟨flow, rfl, h⟩
      | cons frame frames =>
          have hsteps := steps s flow frame frames
          rcases hnext : s.step flow frame frames with ⟨s', p⟩
          rw [hnext] at hsteps
          have hless := cost_step_lt hnext
          have hkeeps := hstep s flow frame frames s' p h hsteps
          cases p with
          | goOn flow' frames' => exact .goOn hnext (ih _ hless s' flow' frames' hkeeps rfl)
          | wait duration frames' =>
              refine .wait hnext fun s'' hmeanwhile => ?_
              have hsame : Toll.steps.ofFrames s'' frames' = Toll.steps.ofFrames s' frames' :=
                Toll.ofFrames_congr _ hmeanwhile.scenes hmeanwhile.depth hmeanwhile.transitioning _
              exact ih _ hless s'' .going frames' (hkeeps s'' hmeanwhile) hsame

/-! ## Commands that are executed -/

/-- How many commands the log tells of. -/
def executions (s : Session) : Nat := s.log.toList.countP LogEntry.isExecution

/-- One for every command. -/
def Toll.commands : Toll := ⟨1, 0⟩

theorem executions_told (s : Session) (entry : LogEntry) :
    (s.told entry).executions ≤ s.executions + if entry.isExecution then 1 else 0 := by
  unfold executions told
  split
  · refine Nat.le_of_eq ?_
    rw [Array.toList_push, List.countP_append, List.countP_singleton]
  · exact Nat.le_add_right _ _

theorem executions_told_of_not {entry : LogEntry} (h : entry.isExecution = false) (s : Session) :
    (s.told entry).executions ≤ s.executions := by
  have htold := executions_told s entry
  rw [h] at htold
  exact htold

theorem executions_of_log {entries : List LogEntry}
    (hlog : s'.log.toList = s.log.toList ++ entries) (h : ∀ e ∈ entries, e.isExecution = false) :
    s'.executions = s.executions := by
  have hnone : entries.countP LogEntry.isExecution = 0 :=
    List.countP_eq_zero.mpr fun e he => by rw [h e he]; exact Bool.false_ne_true
  unfold executions
  rw [hlog, List.countP_append, hnone, Nat.add_zero]

theorem Serves.executions (h : Serves s s') : s'.executions = s.executions := by
  obtain ⟨entries, hlog, hown⟩ := h.log
  exact executions_of_log hlog fun e he => (hown e he).not_isExecution

theorem Meanwhile.executions (h : Meanwhile s s') : s'.executions = s.executions := by
  obtain ⟨entries, hlog, houtside⟩ := h.log
  exact executions_of_log hlog fun e he => (houtside e he).not_isExecution

theorem Performs.executions {outcome : Except Fault Next} (h : Performs s (outcome, s')) :
    s'.executions = s.executions := by
  cases h with
  | fails h | done h | waits h => exact h.executions
  | nests h => rfl
  | changes h hfree => exact h.executions

/-- Only the step on a command can tell that one is executed. -/
theorem executions_step_le {flow : Flow} {frame : Frame} {frames : List Frame} {p : Progress}
    (h : Steps s flow frame frames (s', p)) :
    s'.executions ≤ s.executions + Toll.commands.ofStep frame := by
  cases h with
  | idle h => exact Nat.le_add_right _ _
  | unknown hquit hverb => exact Nat.le_add_right _ _
  | refused hquit hverb hanswer => exact executions_told s _
  | @command i rest _ verb outcome _ hquit hverb hanswer hperform =>
      have hperforms := performs verb i (s.told (executed i))
      rw [hperform] at hperforms
      rw [hperforms.executions]
      exact executions_told s _
  | report => exact executions_told_of_not rfl s
  | nested | transition | leaveNone hscene => exact Nat.le_refl _
  | leave hscene => exact executions_told_of_not rfl s
  | @hidden target recorded _ scene e hscene hanswer =>
      exact executions_told_of_not rfl (s.shown target recorded)
  | @unannounced target recorded _ scene e hscene hcall hanswer =>
      exact Nat.le_trans (executions_told_of_not rfl _)
        (executions_told_of_not rfl (s.shown target recorded))
  | @arrive target recorded _ scene hscene hcall hanswer =>
      exact Nat.le_trans (executions_told_of_not rfl _)
        (executions_told_of_not rfl (s.shown target recorded))

/-- A stack executes no more commands than it was charged for. -/
theorem ends_executions (s : Session) (flow : Flow) (frames : List Frame) :
    Ends (fun s' _ => s'.executions ≤ s.executions + Toll.commands.ofFrames s frames)
      s flow frames := by
  let bound := s.executions + Toll.commands.ofFrames s frames
  have hends := ends_of_steps
    (I := fun s' _ frames' => s'.executions + Toll.commands.ofFrames s' frames' ≤ bound)
    (fun s₁ flow₁ frame frames₁ s₂ p hbound hsteps => by
      have hexecutions := executions_step_le hsteps
      have hcost := Toll.commands.step_le hsteps
      cases p with
      | goOn flow' frames' =>
          have hcost : _ + Toll.commands.ofFrames s₂ frames' ≤ _ := hcost
          show s₂.executions + Toll.commands.ofFrames s₂ frames' ≤ bound
          omega
      | wait duration frames' =>
          intro s'' hmeanwhile
          have hcost : _ + Toll.commands.ofFrames s₂ frames' ≤ _ := hcost
          have hsame := Toll.commands.ofFrames_congr hmeanwhile.scenes hmeanwhile.depth
            hmeanwhile.transitioning frames'
          have hexecutions' := hmeanwhile.executions
          omega)
    s flow frames (Nat.le_refl bound)
  refine hends.imp fun s' result hpost => ?_
  obtain ⟨flow', -, hbound⟩ := hpost
  exact hbound

/-- A list executes at most as many commands as it has chains, each with one change of scene. -/
theorem cost_commands_le (s : Session) (list : List Instruction) :
    Toll.commands.ofFrames s [.commands list] ≤
      list.length * (maxNesting + 1) * (1 + s.longestExit + s.longestEntry) := by
  have hchain : chain s.depth * Toll.commands.ofLink ≤ maxNesting + 1 := by
    show (1 + (16 - s.depth)) * 1 ≤ 17
    omega
  have hlists := Nat.mul_le_mul_left (s.longestExit + s.longestEntry) hchain
  have hother : Toll.commands.other = 0 := rfl
  have hcommand : Toll.commands.inSession s ≤
      (maxNesting + 1) * (1 + (s.longestExit + s.longestEntry)) := by
    rw [Nat.mul_add, Nat.mul_one, Nat.mul_comm (maxNesting + 1)]
    unfold Toll.inSession Toll.ofCommand
    split <;> omega
  calc Toll.commands.ofFrames s [.commands list]
      = list.length * Toll.commands.inSession s := by
        rw [Toll.ofFrames_commands, hother, Nat.zero_add]
        rfl
    _ ≤ list.length * ((maxNesting + 1) * (1 + (s.longestExit + s.longestEntry))) :=
        Nat.mul_le_mul_left _ hcommand
    _ = list.length * (maxNesting + 1) * (1 + s.longestExit + s.longestEntry) := by
        rw [← Nat.mul_assoc, Nat.add_assoc]

end Session

namespace Machine

/-- A call that was started is finished in the end, whatever is done in its pauses; then something
is true of the session and of the result. -/
inductive Completes (owner : Owner) (post : Session → Except Fault Reply → Prop) : Machine → Prop
  | finished {m : Machine} {result : Except Fault Reply} (h : post m.session result) :
      Completes owner post (m.finish owner result)
  | paused {m : Machine} {r : Running} (hrunning : m.running = some r) (howner : r.owner = owner)
      (h : ∀ m', Meanwhile m m' → Completes owner post m'.goOn) : Completes owner post m

theorem Completes.imp {owner : Owner} {post post' : Session → Except Fault Reply → Prop}
    {m : Machine} (h : Completes owner post m) (himp : ∀ s r, post s r → post' s r) :
    Completes owner post' m := by
  induction h with
  | finished h => exact .finished (himp _ _ h)
  | paused hrunning howner _ ih => exact .paused hrunning howner ih

/-- What becomes of a machine when a run stops. -/
def halt (m : Machine) (owner : Owner) (reply : Reply) : Session × Session.Halt → Machine
  | (s, .finished (.ok ())) => { m with session := s }.finish owner (.ok reply)
  | (s, .finished (.error e)) => { m with session := s }.finish owner (.error e)
  | (s, .waiting duration frames) =>
      if 0 < duration then
        { m with
          session := s
          running := some { owner, reply, frames, wake := some (m.now + duration, m.nextOrder) }
          nextOrder := m.nextOrder + 1 }
      else
        { m with session := s, running := some { owner, reply, frames } }.addTurn .resume

theorem runFrames_eq_halt (m : Machine) (owner : Owner) (reply : Reply) (frames : List Frame) :
    m.runFrames owner reply frames = m.halt owner reply (m.session.run .going frames) := by
  unfold runFrames halt
  rcases m.session.run .going frames with ⟨s, (e | u) | duration⟩ <;> rfl

/-- A paused call goes on where it stopped. -/
theorem goOn_eq_halt {m : Machine} {r : Running} (h : m.running = some r) :
    m.goOn = { m with running := none }.halt r.owner r.reply (m.session.run .going r.frames) := by
  unfold goOn
  rw [h]
  exact runFrames_eq_halt { m with running := none } r.owner r.reply r.frames

section

open Session

variable {post : Session → Except Fault Unit → Prop} {owner : Owner} {reply : Reply}

theorem completes_halt {s : Session} {flow : Flow} {frames : List Frame}
    (h : Ends post s flow frames) (m : Machine) {fuel : Nat}
    (hfuel : Toll.steps.ofFrames s frames < fuel) :
    Completes owner (fun s' result => ∃ left, result = left.map (fun _ => reply) ∧ post s' left)
      (m.halt owner reply (Session.runFrames fuel s flow frames)) := by
  induction h generalizing m fuel with
  | @finished s flow h =>
      cases flow with
      | going =>
          have hrun : Session.runFrames fuel s .going [] = (s, .finished (.ok ())) := by
            cases fuel <;> simp only [Session.runFrames]
          rw [hrun]
          exact Completes.finished (m := { m with session := s }) ⟨_, rfl, h⟩
      | failing e =>
          have hrun : Session.runFrames fuel s (.failing e) [] = (s, .finished (.error e)) := by
            cases fuel <;> simp only [Session.runFrames]
          rw [hrun]
          exact Completes.finished (m := { m with session := s }) ⟨_, rfl, h⟩
  | goOn hstep _ ih =>
      cases fuel with
      | zero => exact absurd hfuel (Nat.not_lt_zero _)
      | succ fuel =>
          simp only [Session.runFrames, hstep]
          exact ih m (Nat.lt_of_lt_of_le (cost_step_lt hstep) (Nat.le_of_lt_succ hfuel))
  | @wait s s' flow frame frames frames' duration hstep _ ih =>
      cases fuel with
      | zero => exact absurd hfuel (Nat.not_lt_zero _)
      | succ fuel =>
          simp only [Session.runFrames, hstep]
          -- however long it waits, it goes on with the frames that are left
          have hpaused : ∀ (m₁ : Machine) (r : Running), m₁.running = some r → r.owner = owner →
              r.reply = reply → r.frames = frames' → s'.Meanwhile m₁.session → Completes owner
                (fun s' result => ∃ left, result = left.map (fun _ => reply) ∧ post s' left)
                m₁ := by
            rintro m₁ r hrunning rfl rfl rfl hsession
            refine .paused hrunning rfl fun m₂ hmeanwhile => ?_
            rw [goOn_eq_halt (hmeanwhile.running.trans hrunning)]
            exact ih _ (hsession.trans hmeanwhile.session) _ (cost_lt_stackSteps _ _)
          simp only [halt]
          split
          · exact hpaused _ _ rfl rfl rfl rfl (Session.Meanwhile.refl s')
          · refine hpaused _ _ rfl rfl rfl rfl ?_
            exact Session.meanwhile_of_eq rfl rfl rfl rfl ⟨s'.navigation.place, rfl⟩

end

/-- Every call that runs a list of commands completes: no run of it is cut short, and it executes at
most 17 commands for each command of the list, and 17 more for each command that a change of scene
can set off. -/
theorem start_commands_completes (m : Machine) (owner : Owner) (reply : Reply)
    (list : List Instruction) :
    (∀ (s : Session) (flow : Session.Flow) (frames : List Frame) (more : Nat),
      Session.runFrames (s.stackSteps frames + more) s flow frames = s.run flow frames) ∧
    Completes owner
      (fun s _ => s.executions ≤ m.session.executions +
        list.length * (Session.maxNesting + 1) *
          (1 + m.session.longestExit + m.session.longestEntry))
      (m.start { owner, work := .commands list, reply }) := by
  have hends := Session.ends_executions m.executing.session .going [.commands list]
  have hcost := Session.cost_commands_le m.executing.session list
  have hbound : Session.Ends
      (fun s _ => s.executions ≤ m.session.executions +
        list.length * (Session.maxNesting + 1) *
          (1 + m.session.longestExit + m.session.longestEntry))
      m.executing.session .going [.commands list] :=
    hends.imp fun s _ hs => Nat.le_trans hs (Nat.add_le_add_left hcost _)
  refine ⟨Session.run_add, ?_⟩
  have hstart : m.start { owner, work := .commands list, reply } =
      m.executing.halt owner reply (m.executing.session.run .going [.commands list]) :=
    runFrames_eq_halt m.executing owner reply [.commands list]
  rw [hstart]
  refine (completes_halt hbound m.executing (Session.cost_lt_stackSteps _ _)).imp ?_
  rintro s _ ⟨_, -, hs⟩
  exact hs

end Machine

end PointAndClick
