import PointAndClick.Proofs.Play.Commands

/-!
# What one step does

`Session.Steps` has one case for each thing that a step on the uppermost frame can do, with the
conditions under which it does it. Whatever holds of all runs is proved from these cases.
-/

set_option autoImplicit false

namespace PointAndClick

namespace Session

variable {s s' : Session} {i : Instruction}

/-- How it goes on after something that may fail. -/
def Flow.after : Except Fault Unit → Flow
  | .ok () => .going
  | .error e => .failing e

/-- How it goes on after a command, on top of the frames of its list. -/
def progressOf (i : Instruction) (frames : List Frame) : Except Fault Next → Progress
  | .error e => .goOn (.failing e) (.guarded i :: frames)
  | .ok .done => .goOn .going (.guarded i :: frames)
  | .ok (.wait duration) => .wait duration (.guarded i :: frames)
  | .ok (.push more) => .goOn .going (more ++ .guarded i :: frames)

/-- A frame with nothing left to do for it: the end of a list or of a command, a list after the end
of the project, a list or a change of scene that a failure leaves. -/
def IsIdle (s : Session) : Flow → Frame → Prop
  | .going, .commands [] => True
  | .going, .commands (_ :: _) => s.quit = true
  | .going, .guarded _ => True
  | .going, .arriving target _ => s.navigation.scenes[target]? = none
  | .failing _, .commands _ | .failing _, .leaving .. | .failing _, .arriving .. => True
  | _, _ => False

/-- The scene that a change of scene leads to is shown. -/
def shown (s : Session) (target : Nat) (recorded : Bool) : Session :=
  { s with navigation := s.navigation.enter target recorded }

/-- The entry that tells of a command. -/
def executed (i : Instruction) : LogEntry := .event (.commandExecute i.verb i.args)

/-- The entry that tells of the failure of a command. -/
def failed (i : Instruction) (e : Fault) : LogEntry := .event (.error i.verb i.args e.message)

/-- What one step does, by the frame that it works off. -/
inductive Steps (s : Session) : Flow → Frame → List Frame → Session × Progress → Prop
  | idle {flow : Flow} {frame : Frame} {frames : List Frame} (h : s.IsIdle flow frame) :
      Steps s flow frame frames (s, .goOn flow frames)
  | unknown {i : Instruction} {rest : List Instruction} {frames : List Frame}
      (hquit : s.quit = false) (hverb : Verb.ofName? i.verb = none) :
      Steps s .going (.commands (i :: rest)) frames (s, .goOn .going (.commands rest :: frames))
  | refused {i : Instruction} {rest : List Instruction} {frames : List Frame} {verb : Verb}
      {e : Fault} (hquit : s.quit = false) (hverb : Verb.ofName? i.verb = some verb)
      (hanswer : s.answer (executed i) = .error e) :
      Steps s .going (.commands (i :: rest)) frames
        (s.told (executed i), .goOn (.failing e) (.commands rest :: frames))
  | command {i : Instruction} {rest : List Instruction} {frames : List Frame} {verb : Verb}
      {outcome : Except Fault Next} {s' : Session} (hquit : s.quit = false)
      (hverb : Verb.ofName? i.verb = some verb) (hanswer : s.answer (executed i) = .ok ())
      (hperform : perform verb i (s.told (executed i)) = (outcome, s')) :
      Steps s .going (.commands (i :: rest)) frames
        (s', progressOf i (.commands rest :: frames) outcome)
  | report {e : Fault} {i : Instruction} {frames : List Frame} :
      Steps s (.failing e) (.guarded i) frames
        (s.told (failed i e), .goOn (Flow.after (s.answer (failed i e))) frames)
  | nested {flow : Flow} {frames : List Frame} :
      Steps s flow .nested frames ({ s with depth := s.depth - 1 }, .goOn flow frames)
  | transition {flow : Flow} {frames : List Frame} :
      Steps s flow .transition frames
        ({ s with navigation := s.navigation.endTransition }, .goOn flow frames)
  | leaveNone {target : Nat} {recorded : Bool} {frames : List Frame}
      (hscene : s.navigation.currentScene? = none) :
      Steps s .going (.leaving target recorded) frames
        (s, .goOn .going (.arriving target recorded :: frames))
  | leave {target : Nat} {recorded : Bool} {frames : List Frame} {scene : Scene}
      (hscene : s.navigation.currentScene? = some scene) :
      Steps s .going (.leaving target recorded) frames
        (s.told (.event (.sceneExit scene.index)),
          .goOn (Flow.after (s.answer (.event (.sceneExit scene.index))))
            (.commands (scene.onExit.filterMap Instruction.ofRecord?) ::
              .arriving target recorded :: frames))
  | hidden {target : Nat} {recorded : Bool} {frames : List Frame} {scene : Scene} {e : Fault}
      (hscene : s.navigation.scenes[target]? = some scene)
      (hanswer : s.answer (.call (.goToScene target)) = .error e) :
      Steps s .going (.arriving target recorded) frames
        ((s.shown target recorded).told (.call (.goToScene target)), .goOn (.failing e) frames)
  | unannounced {target : Nat} {recorded : Bool} {frames : List Frame} {scene : Scene} {e : Fault}
      (hscene : s.navigation.scenes[target]? = some scene)
      (hcall : s.answer (.call (.goToScene target)) = .ok ())
      (hanswer : (s.told (.call (.goToScene target))).answer
        (.event (.sceneEnter target scene.name)) = .error e) :
      Steps s .going (.arriving target recorded) frames
        (((s.shown target recorded).told (.call (.goToScene target))).told
          (.event (.sceneEnter target scene.name)), .goOn (.failing e) frames)
  | arrive {target : Nat} {recorded : Bool} {frames : List Frame} {scene : Scene}
      (hscene : s.navigation.scenes[target]? = some scene)
      (hcall : s.answer (.call (.goToScene target)) = .ok ())
      (hanswer : (s.told (.call (.goToScene target))).answer
        (.event (.sceneEnter target scene.name)) = .ok ()) :
      Steps s .going (.arriving target recorded) frames
        (((s.shown target recorded).told (.call (.goToScene target))).told
          (.event (.sceneEnter target scene.name)),
          .goOn .going (.commands (scene.autoCommands.filterMap Instruction.ofRecord?) :: frames))

@[simp] theorem presentation_told (entry : LogEntry) :
    (s.told entry).presentation = s.presentation := by
  unfold told
  split <;> rfl

theorem answer_told_shown (target : Nat) (recorded : Bool) (entry entry' : LogEntry) :
    ((s.shown target recorded).told entry).answer entry' = (s.told entry).answer entry' := by
  unfold told
  show Session.answer (if s.presentation.records = true then _ else _) entry' = _
  split <;> rfl

theorem steps_runInstruction (i : Instruction) (rest : List Instruction) (frames : List Frame)
    (hquit : s.quit = false) :
    Steps s .going (.commands (i :: rest)) frames
      (s.runInstruction i (.commands rest :: frames)) := by
  unfold runInstruction
  cases hverb : Verb.ofName? i.verb with
  | none => exact .unknown hquit hverb
  | some verb =>
      dsimp only
      rw [emit, tell_apply]
      cases hanswer : s.answer (.event (.commandExecute i.verb i.args)) with
      | error e => exact .refused hquit hverb hanswer
      | ok _ =>
          dsimp only
          rcases hperform : perform verb i (s.told (executed i)) with ⟨outcome, s'⟩
          have hstep : Steps s .going (.commands (i :: rest)) frames
              (s', progressOf i (.commands rest :: frames) outcome) :=
            .command hquit hverb hanswer hperform
          unfold executed at hperform
          rw [hperform]
          rcases outcome with e | (_ | _ | _) <;> exact hstep

theorem proceed_tell (s : Session) (entry : LogEntry) (frames : List Frame) :
    s.proceed (tell entry) frames =
      (s.told entry, .goOn (Flow.after (s.answer entry)) frames) := by
  unfold proceed
  rw [tell_apply]
  cases s.answer entry <;> rfl

theorem steps_leave (target : Nat) (recorded : Bool) (frames : List Frame) :
    Steps s .going (.leaving target recorded) frames
      (s.leave (.arriving target recorded :: frames)) := by
  unfold leave
  cases hscene : s.navigation.currentScene? with
  | none => exact .leaveNone hscene
  | some scene =>
      dsimp only
      rw [emit, proceed_tell]
      exact .leave hscene

theorem steps_arrive (target : Nat) (recorded : Bool) (frames : List Frame) :
    Steps s .going (.arriving target recorded) frames (s.arrive target recorded frames) := by
  unfold arrive
  cases hscene : s.navigation.scenes[target]? with
  | none => exact .idle hscene
  | some scene =>
      dsimp only
      rw [bind_apply, call, tell_apply]
      cases hcall : s.answer (.call (.goToScene target)) with
      | error e =>
          rw [show Session.answer { s with navigation := s.navigation.enter target recorded }
            (.call (.goToScene target)) = .error e from hcall]
          exact .hidden hscene hcall
      | ok _ =>
          rw [show Session.answer { s with navigation := s.navigation.enter target recorded }
            (.call (.goToScene target)) = .ok () from hcall]
          dsimp only
          have hemit := answer_told_shown (s := s) target recorded (.call (.goToScene target))
            (.event (.sceneEnter target scene.name))
          unfold shown at hemit
          rw [emit, tell_apply, hemit]
          cases hanswer : (s.told (.call (.goToScene target))).answer
            (.event (.sceneEnter target scene.name)) with
          | error e => exact .unannounced hscene hcall hanswer
          | ok _ => exact .arrive hscene hcall hanswer

theorem steps (s : Session) (flow : Flow) (frame : Frame) (frames : List Frame) :
    Steps s flow frame frames (s.step flow frame frames) := by
  cases flow with
  | going =>
      cases frame with
      | commands list =>
          cases list with
          | nil => exact .idle trivial
          | cons i rest =>
              simp only [step]
              split
              · rename_i hquit
                exact .idle hquit
              · rename_i hquit
                exact steps_runInstruction i rest frames (by simpa using hquit)
      | guarded i => exact .idle trivial
      | nested => exact .nested
      | leaving target recorded => exact steps_leave target recorded frames
      | arriving target recorded => exact steps_arrive target recorded frames
      | transition => exact .transition
  | failing e =>
      cases frame with
      | guarded i =>
          simp only [step]
          rw [emit, proceed_tell]
          exact .report
      | commands _ | leaving _ _ | arriving _ _ => exact .idle trivial
      | nested => exact .nested
      | transition => exact .transition

end Session

end PointAndClick
