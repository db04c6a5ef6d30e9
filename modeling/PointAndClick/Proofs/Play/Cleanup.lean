import PointAndClick.Proofs.Play.Upkeep

/-!
# Calls clean up

On the stack of what runs there is an end for every command inside another and for the change of
scene that is under way (`Session.Balanced`). A failure passes these ends as it leaves the stack, so
that each of them does what it is there for. Once no call has the lock, nothing is left on the
stack, and so nothing is left marked as going on (`Ledger.calls_clean_up`).
-/

set_option autoImplicit false

namespace PointAndClick

/-- The frame is there to end something that is marked as going on. -/
def Frame.isEnd : Frame → Bool
  | .nested | .transition => true
  | _ => false

namespace Session

/-- For everything that is marked as going on there is an end on the stack. -/
structure Balanced (s : Session) (frames : List Frame) : Prop where
  depth : s.depth = frames.count .nested
  transitioning : s.navigation.transitioning = true → .transition ∈ frames

variable {s s' : Session} {frame : Frame} {frames : List Frame}

/-- What is the end of nothing makes no difference. -/
theorem balanced_cons_iff (hend : frame.isEnd = false) :
    Balanced s (frame :: frames) ↔ Balanced s frames := by
  have hnested : frame ≠ .nested := by
    rintro rfl
    nomatch hend
  have htransition : .transition ≠ frame := by
    rintro rfl
    nomatch hend
  have hcount : (frame :: frames).count .nested = frames.count .nested :=
    List.count_cons_of_ne hnested
  have hmem : .transition ∈ frame :: frames ↔ .transition ∈ frames := by
    rw [List.mem_cons, or_iff_right htransition]
  constructor
  · intro h
    exact ⟨hcount ▸ h.depth, fun hchanging => hmem.mp (h.transitioning hchanging)⟩
  · intro h
    exact ⟨hcount ▸ h.depth, fun hchanging => hmem.mpr (h.transitioning hchanging)⟩

theorem Balanced.cons (h : Balanced s frames) (hend : frame.isEnd = false := by rfl) :
    Balanced s (frame :: frames) := (balanced_cons_iff hend).mpr h

/-- The end of a change of scene is no end of a nested command. -/
theorem count_nested_transition (frames : List Frame) :
    (Frame.transition :: frames).count .nested = frames.count .nested :=
  List.count_cons_of_ne (show Frame.transition ≠ .nested from nofun)

theorem Balanced.nested (h : Balanced s frames) :
    Balanced { s with depth := s.depth + 1 } (.nested :: frames) := by
  constructor
  · rw [List.count_cons_self]
    exact congrArg (· + 1) h.depth
  · intro hchanging
    exact List.mem_cons_of_mem _ (h.transitioning hchanging)

theorem Balanced.transition (h : Balanced s frames) :
    Balanced { s with navigation := { s.navigation with transitioning := true } }
      (.transition :: frames) := by
  constructor
  · rw [count_nested_transition]
    exact h.depth
  · intro _
    exact List.mem_cons_self

/-- Nothing begins, and no end is taken off the stack. -/
theorem Balanced.spares (h : Balanced s frames) (hspares : Spares s s') : Balanced s' frames :=
  ⟨hspares.depth.trans h.depth, fun hchanging => h.transitioning (hspares.transitioning hchanging)⟩

theorem Balanced.told (h : Balanced s frames) (entry : LogEntry) :
    Balanced (s.told entry) frames := by
  refine h.spares ?_
  unfold Session.told
  split <;> exact spares_of_eq rfl rfl rfl

theorem Balanced.shown (h : Balanced s frames) (target : Nat) (recorded : Bool) :
    Balanced (s.shown target recorded) frames := by
  obtain ⟨history, place, henter⟩ := s.navigation.enter_eq target recorded
  refine h.spares ?_
  unfold Session.shown
  rw [henter]
  exact spares_of_eq rfl rfl rfl

/-- A command puts the ends of what it begins on the stack. -/
theorem Balanced.perform (h : Balanced s frames) {verb : Verb} {i : Instruction}
    {outcome : Except Fault Next} (hperform : perform verb i s = (outcome, s')) :
    Balanced s' (progressOf i frames outcome).frames := by
  have hserved {s₁ : Session} (hserves : Serves s s₁) : Balanced s₁ (.guarded i :: frames) :=
    (h.spares (spares_of_eq hserves.executing hserves.depth hserves.transitioning)).cons
  have hperforms := performs verb i s
  rw [hperform] at hperforms
  cases hperforms with
  | fails hserves | done hserves | waits hserves => exact hserved hserves
  | nests hdepth => exact (hserved (Serves.refl s)).nested.cons
  | changes hserves hfree => exact (hserved hserves).transition.cons

/-- A step takes an end off the stack only where something ends. -/
theorem Balanced.step {flow : Flow} {p : Progress} (hsteps : Steps s flow frame frames (s', p))
    (h : Balanced s (frame :: frames)) : Balanced s' p.frames := by
  have hbelow : frame.isEnd = false → Balanced s frames := fun hend =>
    (balanced_cons_iff hend).mp h
  cases hsteps with
  | idle hidle =>
      refine hbelow ?_
      cases frame with
      | nested | transition => cases flow <;> exact hidle.elim
      | _ => rfl
  | nested =>
      constructor
      · show s.depth - 1 = frames.count .nested
        rw [h.depth, List.count_cons_self, Nat.add_sub_cancel]
      · intro hchanging
        have hmem := h.transitioning hchanging
        rwa [List.mem_cons, or_iff_right nofun] at hmem
  | transition =>
      constructor
      · have hdepth := h.depth
        rwa [count_nested_transition] at hdepth
      · exact nofun
  | unknown hquit hverb => exact (hbelow rfl).cons
  | refused hquit hverb hanswer => exact ((hbelow rfl).told _).cons
  | command hquit hverb hanswer hperform => exact (((hbelow rfl).told _).cons).perform hperform
  | report => exact (hbelow rfl).told _
  | leaveNone hscene => exact (hbelow rfl).cons
  | leave hscene => exact ((hbelow rfl).told _).cons.cons
  | hidden hscene hanswer => exact ((hbelow rfl).shown _ _).told _
  | unannounced hscene hcall hanswer => exact (((hbelow rfl).shown _ _).told _).told _
  | arrive hscene hcall hanswer => exact ((((hbelow rfl).shown _ _).told _).told _).cons

theorem upkeep_balanced :
    Upkeep (fun _ => True) (fun _ => True) fun s _ frames => Balanced s frames where
  free _ _ _ h := ⟨h.depth, h.transitioning⟩
  idle h := h
  list _ h := h.cons
  change _ _ _ h := h.transition.cons
  tick _ _ h := h.told _
  step := Balanced.step
  plan {_ _ a} _ h := h.spares (spares_plan a _)
  asks _ _ := trivial
  ticks _ := trivial

/-- With nothing left on the stack, nothing goes on. -/
theorem Balanced.nothing (h : Balanced s []) :
    s.depth = 0 ∧ s.navigation.transitioning = false := by
  refine ⟨h.depth, ?_⟩
  cases hchanging : s.navigation.transitioning with
  | false => rfl
  | true => nomatch h.transitioning hchanging

end Session

namespace Ledger

/-- Every call cleans up, even when it fails. Whatever users, timers and the presentation do, and
whichever calls to it and events it refuses, each at its place in the log: once no call has the
lock, nothing is marked as being run, no command is nested in another, and no change of scene is
under way; and once no call waits for the lock either, it is free and nothing hands it on. -/
theorem calls_clean_up (p : Project) (presentation : Presentation) (minInterval : Int)
    (moves : List Move) :
    let s := Session.ofProject p presentation minInterval
    let l := (ofSession s).after moves
    l.machine = (Machine.ofSession s).after moves ∧
      l.machine.session.executing = l.holder.isSome ∧
      (l.holder = none → l.machine.running = none ∧ l.machine.session.executing = false ∧
        l.machine.session.depth = 0 ∧ l.machine.session.navigation.transitioning = false ∧
        (l.waiting = [] → l.machine.queue = [] ∧ .grant ∉ l.machine.session.turns)) := by
  intro s l
  have hstart : (ofSession s).Fair := fair_ofSession rfl rfl
  have hfair : l.Fair := hstart.after moves
  have hfresh : Machine.Upkept (fun _ => True) (fun s _ frames => Session.Balanced s frames)
      (ofSession s).machine := ⟨rfl, fun _ _ => trivial, rfl, nofun⟩
  have hmoves : ∀ move ∈ moves, move.Respects (fun _ => True) (fun _ => True) := by
    intro move _
    cases move <;> trivial
  have hupkept := Machine.upkept_after Session.upkeep_balanced hstart hfresh hmoves
  have hexecuting : l.machine.session.executing = l.holder.isSome :=
    hupkept.executing.trans hfair.holds.symm
  refine ⟨machine_after hstart moves, hexecuting, ?_⟩
  intro hholder
  have hrunning : l.machine.running = none := hfair.holder_eq_none_iff.mp hholder
  have hbalanced : Session.Balanced l.machine.session l.machine.left := hupkept.holds
  rw [Machine.left_of_free hrunning] at hbalanced
  obtain ⟨hdepth, htransitioning⟩ := hbalanced.nothing
  refine ⟨hrunning, ?_, hdepth, htransitioning, ?_⟩
  · rw [hexecuting, hholder]
    rfl
  · intro hwaiting
    have hqueue : l.machine.queue = [] := hfair.waiting_eq_nil_iff.mp hwaiting
    have hgrants : l.machine.grants = 0 := hfair.locks.grants_eq_zero (Or.inr hqueue)
    exact ⟨hqueue, List.count_eq_zero.mp hgrants⟩

/-- When the first of two scenes is left, a command two deep in others pauses, and so deep a comment
follows. -/
def nestedExit : Project where
  scenes := [
    { index := 0
      onExit := [⟨.simple 35 "IF LAPS = 0 THEN PAUSE 20", 0⟩,
        ⟨.simple 35 "IF LAPS = 0 THEN REM", 0⟩] },
    { index := 1 }]

/-- Refuses to be told of failures, and of the command at one place in the log. -/
def closedAt (closed : Nat) : Refusals := fun place entry =>
  match entry with
  | .event (.error ..) => some "closed"
  | _ => if place = closed then some "closed" else none

/-- The first scene is entered and then left for the other one; while its commands pause, another
list is asked for. -/
def nestedMoves : List Move :=
  [.act (.goToScene (.index 0)), .act (.execute [⟨"SCENE", "2"⟩]), .act (.execute [⟨"REM", ""⟩]),
    .turn .resume, .turn .grant]

/-- What is told in the course of the list that changes the scene. -/
def nestedTold : List LogEntry :=
  [.event (.commandExecute "SCENE" "2"), .event (.sceneExit 0),
    .event (.commandExecute "PLAYCMD" "IF LAPS = 0 THEN PAUSE 20"),
    .event (.commandExecute "IF" "LAPS = 0 THEN PAUSE 20"),
    .event (.commandExecute "PAUSE" "20"), .call (.pause 20),
    .event (.commandExecute "PLAYCMD" "IF LAPS = 0 THEN REM"),
    .event (.commandExecute "IF" "LAPS = 0 THEN REM"), .event (.commandExecute "REM" ""),
    .event (.error "IF" "LAPS = 0 THEN REM" "closed"),
    .event (.error "PLAYCMD" "IF LAPS = 0 THEN REM" "closed"),
    .event (.error "SCENE" "2" "closed")]

/-- The comment inside the change of scene is not heard, and no failure that comes of it is: it
leaves the two commands around it, the list, the change of scene and the call. The call that waited
goes on as if nothing had happened. -/
theorem calls_clean_up_unheard :
    let s := Session.ofProject nestedExit { refusals := closedAt 10 } 16
    let paused := (ofSession s).after (nestedMoves.take 3)
    let l := (ofSession s).after nestedMoves
    (paused.holder = some 1 ∧ paused.waiting = [2] ∧ paused.machine.session.depth = 2 ∧
      paused.machine.session.navigation.transitioning = true) ∧
    ((l.block 1).map Prod.snd = nestedTold ∧
      (l.block 2).map Prod.snd = [.event (.commandExecute "REM" "")] ∧
      (l.machine.result? 1).map Except.isOk = some false ∧
      (l.machine.result? 2).map Except.isOk = some true) ∧
    l.holder = none ∧ l.waiting = [] ∧ l.machine.session.executing = false ∧
      l.machine.session.depth = 0 ∧ l.machine.session.navigation.transitioning = false ∧
      .grant ∉ l.machine.session.turns := by
  intro s paused l
  have hclean := calls_clean_up nestedExit { refusals := closedAt 10 } 16 nestedMoves
  have hl : (ofSession (Session.ofProject nestedExit { refusals := closedAt 10 } 16)).after
      nestedMoves = l := rfl
  have hpaused : paused.holder = some 1 ∧ paused.waiting = [2] ∧ paused.machine.session.depth = 2 ∧
      paused.machine.session.navigation.transitioning = true := by decide +kernel
  have htold : (l.block 1).map Prod.snd = nestedTold ∧
      (l.block 2).map Prod.snd = [.event (.commandExecute "REM" "")] ∧
      (l.machine.result? 1).map Except.isOk = some false ∧
      (l.machine.result? 2).map Except.isOk = some true := by decide +kernel
  have hholder : l.holder = none := by decide +kernel
  have hwaiting : l.waiting = [] := by decide +kernel
  clear_value l
  dsimp only at hclean
  rw [hl] at hclean
  obtain ⟨-, -, hclean⟩ := hclean
  obtain ⟨-, hexecuting, hdepth, htransitioning, hlock⟩ := hclean hholder
  obtain ⟨-, hgrant⟩ := hlock hwaiting
  exact ⟨hpaused, htold, hholder, hwaiting, hexecuting, hdepth, htransitioning, hgrant⟩

end Ledger

end PointAndClick
