import PointAndClick.Proofs.Play.Completion

/-!
# What comes of a list

`Session.Carries` says by rules what it is to carry out a list of commands, a command, or a change
of scene: what is told meanwhile, as a forest of commands each with all that is told for it, with
what failure it ends, if any, and which session is left. A rule for a pause leaves open what the
surroundings do in it (`Session.Meanwhile`).

Every stack of frames keeps to the rules (`Session.ends_commands`), whatever fails. From them it is
proved by induction what a list leaves as it was, and that each failing command is reported once.
-/

set_option autoImplicit false

namespace PointAndClick

/-- The entry tells of a failure. -/
def LogEntry.isFailure : LogEntry → Bool
  | .event (.error ..) => true
  | _ => false

theorem LogEntry.IsOwn.not_isFailure {changing : Bool} {e : LogEntry} (h : e.IsOwn changing) :
    e.isFailure = false := by
  unfold isFailure
  split
  · exact h.elim
  · rfl

theorem LogEntry.IsOutside.not_isFailure {e : LogEntry} (h : e.IsOutside) :
    e.isFailure = false := by
  unfold isFailure
  split
  · exact h.elim
  · rfl

/-- What is told while something is carried out: single entries, and commands, each with what is
told for it and the failure that is reported at its end. -/
inductive Told
  | entry (e : LogEntry)
  | command (i : Instruction) (parts : List Told) (fault : Option Fault)

namespace Told

/-- The report of a failure, if there is one. -/
def report (i : Instruction) : Option Fault → List LogEntry
  | none => []
  | some e => [Session.failed i e]

mutual

/-- The entries in the order in which they are told. -/
def entries : Told → List LogEntry
  | .entry e => [e]
  | .command i parts fault => Session.executed i :: (entriesAll parts ++ report i fault)

/-- The entries of several. -/
def entriesAll : List Told → List LogEntry
  | [] => []
  | t :: ts => t.entries ++ entriesAll ts

end

mutual

/-- The commands in the order in which they begin, those inside others included. -/
def commands : Told → List Instruction
  | .entry _ => []
  | .command i parts _ => i :: commandsAll parts

/-- The commands of several. -/
def commandsAll : List Told → List Instruction
  | [] => []
  | t :: ts => t.commands ++ commandsAll ts

end

mutual

/-- The commands that fail, with their faults, in the order in which they end. -/
def failures : Told → List (Instruction × Fault)
  | .entry _ => []
  | .command i parts fault => failuresAll parts ++ (fault.map fun e => (i, e)).toList

/-- The commands of several that fail. -/
def failuresAll : List Told → List (Instruction × Fault)
  | [] => []
  | t :: ts => t.failures ++ failuresAll ts

end

/-- The command that is told of, not one inside it. -/
def command? : Told → Option Instruction
  | .entry _ => none
  | .command i _ _ => some i

theorem entriesAll_append (ts us : List Told) :
    entriesAll (ts ++ us) = entriesAll ts ++ entriesAll us := by
  induction ts with
  | nil => rfl
  | cons t ts ih => rw [List.cons_append, entriesAll, entriesAll, ih, List.append_assoc]

theorem commandsAll_append (ts us : List Told) :
    commandsAll (ts ++ us) = commandsAll ts ++ commandsAll us := by
  induction ts with
  | nil => rfl
  | cons t ts ih => rw [List.cons_append, commandsAll, commandsAll, ih, List.append_assoc]

theorem failuresAll_append (ts us : List Told) :
    failuresAll (ts ++ us) = failuresAll ts ++ failuresAll us := by
  induction ts with
  | nil => rfl
  | cons t ts ih => rw [List.cons_append, failuresAll, failuresAll, ih, List.append_assoc]

theorem entriesAll_map_entry (es : List LogEntry) : entriesAll (es.map .entry) = es := by
  induction es with
  | nil => rfl
  | cons e es ih => rw [List.map_cons, entriesAll, ih]; rfl

end Told

namespace Session

/-- What is carried out. -/
inductive Task
  | list (list : List Instruction)
  | command (verb : Verb) (i : Instruction)
  | change (target : Nat) (recorded : Bool)
  | arrival (target : Nat) (recorded : Bool)

/-- Some entries are added that tell of no command and of no failure. -/
structure Adds (s : Session) (entries : List LogEntry) (s' : Session) : Prop where
  log : s'.log.toList = s.log.toList ++ entries
  plain : ∀ e ∈ entries, e.isExecution = false ∧ e.isFailure = false

/-- The session after a failure of a command, if there is one, was reported. -/
def reported (s : Session) (i : Instruction) : Option Fault → Session
  | none => s
  | some e => s.told (failed i e)

/-- The presentation does not refuse to be told of the failure of a command, if there is one. -/
def Reports (s : Session) (i : Instruction) (fault : Option Fault) : Prop :=
  ∀ e, fault = some e → s.answer (failed i e) = .ok ()

/-- The rules for carrying something out: what is told, with what failure it ends, if any, and
which session is left. -/
inductive Carries : Task → Session → List Told → Option Fault → Session → Prop
  | nil {s : Session} : Carries (.list []) s [] none s
  | skipped {s : Session} {i : Instruction} {rest : List Instruction} (hquit : s.quit = true) :
      Carries (.list (i :: rest)) s [] none s
  | unknown {s s' : Session} {i : Instruction} {rest : List Instruction} {told : List Told}
      {fault : Option Fault} (hquit : s.quit = false) (hverb : Verb.ofName? i.verb = none)
      (hrest : Carries (.list rest) s told fault s') :
      Carries (.list (i :: rest)) s told fault s'
  | refused {s : Session} {i : Instruction} {rest : List Instruction} {verb : Verb} {e : Fault}
      (hquit : s.quit = false) (hverb : Verb.ofName? i.verb = some verb)
      (hanswer : s.answer (executed i) = .error e) :
      Carries (.list (i :: rest)) s [.command i [] none] (some e) (s.told (executed i))
  | command {s s₁ s' : Session} {i : Instruction} {rest : List Instruction} {verb : Verb}
      {parts told : List Told} {fault fault' : Option Fault} (hquit : s.quit = false)
      (hverb : Verb.ofName? i.verb = some verb) (hanswer : s.answer (executed i) = .ok ())
      (hcommand : Carries (.command verb i) (s.told (executed i)) parts fault s₁)
      (hreports : s₁.Reports i fault)
      (hrest : Carries (.list rest) (s₁.reported i fault) told fault' s') :
      Carries (.list (i :: rest)) s (.command i parts fault :: told) fault' s'
  | unreported {s s₁ : Session} {i : Instruction} {rest : List Instruction} {verb : Verb}
      {parts : List Told} {e e' : Fault} (hquit : s.quit = false)
      (hverb : Verb.ofName? i.verb = some verb) (hanswer : s.answer (executed i) = .ok ())
      (hcommand : Carries (.command verb i) (s.told (executed i)) parts (some e) s₁)
      (hrefused : s₁.answer (failed i e) = .error e') :
      Carries (.list (i :: rest)) s [.command i parts (some e)] (some e') (s₁.told (failed i e))
  | done {s s' : Session} {verb : Verb} {i : Instruction} {entries : List LogEntry}
      (hperform : perform verb i s = (.ok .done, s')) (hadds : Adds s entries s') :
      Carries (.command verb i) s (entries.map .entry) none s'
  | fails {s s' : Session} {verb : Verb} {i : Instruction} {entries : List LogEntry} {e : Fault}
      (hperform : perform verb i s = (.error e, s')) (hadds : Adds s entries s') :
      Carries (.command verb i) s (entries.map .entry) (some e) s'
  | waits {s s₁ s' : Session} {verb : Verb} {i : Instruction} {entries entries' : List LogEntry}
      {duration : Nat} (hperform : perform verb i s = (.ok (.wait duration), s₁))
      (hadds : Adds s entries s₁) (hmeanwhile : Meanwhile s₁ s') (hadds' : Adds s₁ entries' s') :
      Carries (.command verb i) s ((entries ++ entries').map .entry) none s'
  | nests {s s₁ s' : Session} {verb : Verb} {i j : Instruction} {told : List Told}
      {fault : Option Fault}
      (hperform : perform verb i s = (.ok (.push [.commands [j], .nested]), s₁))
      (hlist : Carries (.list [j]) s₁ told fault s') :
      Carries (.command verb i) s told fault { s' with depth := s'.depth - 1 }
  | changes {s s₁ s' : Session} {verb : Verb} {i : Instruction} {entries : List LogEntry}
      {target : Nat} {recorded : Bool} {told : List Told} {fault : Option Fault}
      (hperform : perform verb i s = (.ok (.push [.leaving target recorded, .transition]), s₁))
      (hadds : Adds s entries s₁) (hchange : Carries (.change target recorded) s₁ told fault s') :
      Carries (.command verb i) s (entries.map .entry ++ told) fault
        { s' with navigation := s'.navigation.endTransition }
  | nowhere {s s' : Session} {target : Nat} {recorded : Bool} {told : List Told}
      {fault : Option Fault} (hscene : s.navigation.currentScene? = none)
      (harrival : Carries (.arrival target recorded) s told fault s') :
      Carries (.change target recorded) s told fault s'
  | stays {s : Session} {target : Nat} {recorded : Bool} {e : Fault} {scene : Scene}
      (hscene : s.navigation.currentScene? = some scene)
      (hanswer : s.answer (.event (.sceneExit scene.index)) = .error e) :
      Carries (.change target recorded) s [.entry (.event (.sceneExit scene.index))] (some e)
        (s.told (.event (.sceneExit scene.index)))
  | stuck {s s₁ : Session} {target : Nat} {recorded : Bool} {told : List Told} {e : Fault}
      {scene : Scene} (hscene : s.navigation.currentScene? = some scene)
      (hanswer : s.answer (.event (.sceneExit scene.index)) = .ok ())
      (hexit : Carries (.list (scene.onExit.filterMap Instruction.ofRecord?))
        (s.told (.event (.sceneExit scene.index))) told (some e) s₁) :
      Carries (.change target recorded) s
        (.entry (.event (.sceneExit scene.index)) :: told) (some e) s₁
  | leaves {s s₁ s' : Session} {target : Nat} {recorded : Bool} {told told' : List Told}
      {fault : Option Fault} {scene : Scene} (hscene : s.navigation.currentScene? = some scene)
      (hanswer : s.answer (.event (.sceneExit scene.index)) = .ok ())
      (hexit : Carries (.list (scene.onExit.filterMap Instruction.ofRecord?))
        (s.told (.event (.sceneExit scene.index))) told none s₁)
      (harrival : Carries (.arrival target recorded) s₁ told' fault s') :
      Carries (.change target recorded) s
        (.entry (.event (.sceneExit scene.index)) :: (told ++ told')) fault s'
  | missing {s : Session} {target : Nat} {recorded : Bool}
      (hscene : s.navigation.scenes[target]? = none) :
      Carries (.arrival target recorded) s [] none s
  | hidden {s : Session} {target : Nat} {recorded : Bool} {scene : Scene} {e : Fault}
      (hscene : s.navigation.scenes[target]? = some scene)
      (hanswer : s.answer (.call (.goToScene target)) = .error e) :
      Carries (.arrival target recorded) s [.entry (.call (.goToScene target))] (some e)
        ((s.shown target recorded).told (.call (.goToScene target)))
  | unannounced {s : Session} {target : Nat} {recorded : Bool} {scene : Scene} {e : Fault}
      (hscene : s.navigation.scenes[target]? = some scene)
      (hcall : s.answer (.call (.goToScene target)) = .ok ())
      (hanswer : (s.told (.call (.goToScene target))).answer
        (.event (.sceneEnter target scene.name)) = .error e) :
      Carries (.arrival target recorded) s
        [.entry (.call (.goToScene target)), .entry (.event (.sceneEnter target scene.name))]
        (some e)
        (((s.shown target recorded).told (.call (.goToScene target))).told
          (.event (.sceneEnter target scene.name)))
  | enters {s s' : Session} {target : Nat} {recorded : Bool} {scene : Scene} {told : List Told}
      {fault : Option Fault} (hscene : s.navigation.scenes[target]? = some scene)
      (hcall : s.answer (.call (.goToScene target)) = .ok ())
      (hanswer : (s.told (.call (.goToScene target))).answer
        (.event (.sceneEnter target scene.name)) = .ok ())
      (hentry : Carries (.list (scene.autoCommands.filterMap Instruction.ofRecord?))
        (((s.shown target recorded).told (.call (.goToScene target))).told
          (.event (.sceneEnter target scene.name))) told fault s') :
      Carries (.arrival target recorded) s
        (.entry (.call (.goToScene target)) ::
          .entry (.event (.sceneEnter target scene.name)) :: told) fault s'

/-! ## What lasts -/

variable {s s' : Session}

/-- What is carried out leaves these parts of the state as they were. -/
structure Lasts (s s' : Session) : Prop where
  presentation : s'.presentation = s.presentation
  quit : s.quit = true → s'.quit = true
  depth : s'.depth = s.depth
  scenes : s'.navigation.scenes = s.navigation.scenes
  transitioning : s'.navigation.transitioning = s.navigation.transitioning

theorem Lasts.refl (s : Session) : Lasts s s := ⟨rfl, id, rfl, rfl, rfl⟩

theorem Lasts.trans {s₁ s₂ s₃ : Session} (h : Lasts s₁ s₂) (h' : Lasts s₂ s₃) : Lasts s₁ s₃ where
  presentation := h'.presentation.trans h.presentation
  quit hquit := h'.quit (h.quit hquit)
  depth := h'.depth.trans h.depth
  scenes := h'.scenes.trans h.scenes
  transitioning := h'.transitioning.trans h.transitioning

theorem Lasts.cost (h : Lasts s s') (t : Toll) (frames : List Frame) :
    t.ofFrames s' frames = t.ofFrames s frames :=
  t.ofFrames_congr h.scenes h.depth h.transitioning frames

theorem Serves.lasts (h : Serves s s') : Lasts s s' :=
  ⟨h.presentation, h.quit, h.depth, h.scenes, h.transitioning⟩

theorem Meanwhile.lasts (h : Meanwhile s s') : Lasts s s' :=
  ⟨h.presentation, fun hquit => h.quit.trans hquit, h.depth, h.scenes, h.transitioning⟩

theorem lasts_told (s : Session) (entry : LogEntry) : Lasts s (s.told entry) := by
  unfold told
  split <;> exact ⟨rfl, id, rfl, rfl, rfl⟩

theorem lasts_shown (s : Session) (target : Nat) (recorded : Bool) :
    Lasts s (s.shown target recorded) := by
  unfold shown Navigation.enter Navigation.record
  split <;> exact ⟨rfl, id, rfl, rfl, rfl⟩

theorem lasts_reported (s : Session) (i : Instruction) (fault : Option Fault) :
    Lasts s (s.reported i fault) := by
  cases fault with
  | none => exact Lasts.refl s
  | some e => exact lasts_told s _

theorem lasts_announced (s : Session) (target : Nat) (recorded : Bool) (entry entry' : LogEntry) :
    Lasts s (((s.shown target recorded).told entry).told entry') :=
  ((lasts_shown s target recorded).trans (lasts_told _ _)).trans (lasts_told _ _)

theorem serves_of_perform {verb : Verb} {i : Instruction} {outcome : Except Fault Next}
    (h : perform verb i s = (outcome, s')) (hpush : ∀ frames, outcome ≠ .ok (.push frames)) :
    Serves s s' := by
  have hperforms := performs verb i s
  rw [h] at hperforms
  cases hperforms with
  | fails h | done h | waits h => exact h
  | nests _ | changes _ _ => exact absurd rfl (hpush _)

theorem eq_of_nests {verb : Verb} {i j : Instruction}
    (h : perform verb i s = (.ok (.push [.commands [j], .nested]), s')) :
    s' = { s with depth := s.depth + 1 } := by
  have hperforms := performs verb i s
  rw [h] at hperforms
  cases hperforms
  rfl

theorem eq_of_changes {verb : Verb} {i : Instruction} {target : Nat} {recorded : Bool}
    (h : perform verb i s = (.ok (.push [.leaving target recorded, .transition]), s')) :
    ∃ s₀, Serves s s₀ ∧ s.navigation.transitioning = false ∧
      s' = { s₀ with navigation := { s₀.navigation with transitioning := true } } := by
  have hperforms := performs verb i s
  rw [h] at hperforms
  cases hperforms with
  | changes hserves hfree => exact ⟨_, hserves, hfree, rfl⟩

theorem exists_refused_of_not_reports {i : Instruction} {fault : Option Fault}
    (h : ¬s.Reports i fault) :
    ∃ e, fault = some e ∧ ∃ e', s.answer (failed i e) = .error e' := by
  cases fault with
  | none => exact absurd nofun h
  | some e =>
      refine ⟨e, rfl, ?_⟩
      cases hanswer : s.answer (failed i e) with
      | error e' => exact ⟨e', rfl⟩
      | ok _ =>
          refine absurd ?_ h
          rintro e' ⟨⟩
          exact hanswer

theorem Carries.lasts {task : Task} {told : List Told} {fault : Option Fault}
    (h : Carries task s told fault s') : Lasts s s' := by
  induction h with
  | nil | skipped hquit | missing hscene => exact Lasts.refl _
  | unknown hquit hverb _ ih => exact ih
  | refused hquit hverb hanswer => exact lasts_told _ _
  | command hquit hverb hanswer _ _ _ ihcommand ihrest =>
      exact ((lasts_told _ _).trans ihcommand).trans ((lasts_reported _ _ _).trans ihrest)
  | unreported hquit hverb hanswer _ _ ih =>
      exact ((lasts_told _ _).trans ih).trans (lasts_told _ _)
  | done hperform hadds => exact (serves_of_perform hperform (fun _ => nofun)).lasts
  | fails hperform hadds => exact (serves_of_perform hperform (fun _ => nofun)).lasts
  | waits hperform hadds hmeanwhile hadds' =>
      exact (serves_of_perform hperform (fun _ => nofun)).lasts.trans hmeanwhile.lasts
  | nests hperform _ ih =>
      obtain rfl := eq_of_nests hperform
      exact ⟨ih.presentation, ih.quit, congrArg (· - 1) ih.depth, ih.scenes, ih.transitioning⟩
  | changes hperform hadds _ ih =>
      obtain ⟨s₀, hserves, hfree, rfl⟩ := eq_of_changes hperform
      exact ⟨ih.presentation.trans hserves.presentation, fun hquit => ih.quit (hserves.quit hquit),
        ih.depth.trans hserves.depth, ih.scenes.trans hserves.scenes, hfree.symm⟩
  | nowhere hscene _ ih => exact ih
  | stays hscene hanswer => exact lasts_told _ _
  | stuck hscene hanswer _ ih => exact (lasts_told _ _).trans ih
  | leaves hscene hanswer _ _ ihexit iharrival =>
      exact ((lasts_told _ _).trans ihexit).trans iharrival
  | hidden hscene hanswer => exact (lasts_shown _ _ _).trans (lasts_told _ _)
  | unannounced hscene hcall hanswer => exact lasts_announced _ _ _ _ _
  | enters hscene hcall hanswer _ ih => exact (lasts_announced _ _ _ _ _).trans ih

/-- A list fails only when the presentation refuses an event. -/
theorem Carries.list_fault {list : List Instruction} {told : List Told} {fault : Option Fault}
    (h : Carries (.list list) s told fault s') (hhears : s.presentation.HearsEvents) :
    fault = none := by
  generalize htask : Task.list list = task at h
  induction h generalizing list with
  | nil | skipped hquit => rfl
  | unknown hquit hverb _ ih => exact ih hhears rfl
  | refused hquit hverb hrefused =>
      rw [executed, answer_event hhears] at hrefused
      nomatch hrefused
  | command hquit hverb _ hcommand _ _ _ ih =>
      refine ih ?_ rfl
      rw [(lasts_reported _ _ _).presentation, hcommand.lasts.presentation, presentation_told]
      exact hhears
  | unreported hquit hverb _ hcommand hrefused =>
      have hlasts := (lasts_told _ _).trans hcommand.lasts
      rw [failed, answer_event (hlasts.presentation ▸ hhears)] at hrefused
      nomatch hrefused
  | _ => nomatch htask

/-! ## Every stack keeps to the rules -/

/-- How it goes on with or without a fault. -/
def Flow.ofFault : Option Fault → Flow
  | none => .going
  | some e => .failing e

section

variable {post : Session → Except Fault Unit → Prop}

/-- Whatever comes of carrying something out, the frames below it end. -/
def Leads (post : Session → Except Fault Unit → Prop) (task : Task) (s : Session)
    (frames : List Frame) : Prop :=
  ∀ told fault s', Carries task s told fault s' → Ends post s' (.ofFault fault) frames

/-- Lists on stacks that cost less than a limit keep to the rules. -/
def Below (post : Session → Except Fault Unit → Prop) (limit : Nat) : Prop :=
  ∀ s list frames, Toll.steps.ofFrames s (.commands list :: frames) < limit →
    Leads post (.list list) s frames → Ends post s .going (.commands list :: frames)

theorem adds_of_serves (h : Serves s s') : ∃ entries, Adds s entries s' := by
  obtain ⟨entries, hlog, hown⟩ := h.log
  exact ⟨entries, hlog, fun e he => ⟨(hown e he).not_isExecution, (hown e he).not_isFailure⟩⟩

theorem adds_of_meanwhile (h : Meanwhile s s') : ∃ entries, Adds s entries s' := by
  obtain ⟨entries, hlog, houtside⟩ := h.log
  exact ⟨entries, hlog,
    fun e he => ⟨(houtside e he).not_isExecution, (houtside e he).not_isFailure⟩⟩

/-- What is below a list costs no more than both. -/
theorem cost_tail_le (s : Session) (list : List Instruction) (frames : List Frame) :
    Toll.steps.ofFrames s frames ≤ Toll.steps.ofFrames s (.commands list :: frames) := by
  rw [Toll.ofFrames_commands]
  exact Nat.le_add_left _ _

theorem ends_arriving {limit : Nat} (hbelow : Below post limit) {s : Session} {target : Nat}
    {recorded : Bool} {frames : List Frame}
    (hcost : Toll.steps.ofFrames s (.arriving target recorded :: frames) < limit)
    (h : Leads post (.arrival target recorded) s frames) :
    Ends post s .going (.arriving target recorded :: frames) := by
  have hsteps := steps s .going (.arriving target recorded) frames
  rcases hnext : s.step .going (.arriving target recorded) frames with ⟨s₁, p⟩
  have hless := cost_step_lt hnext
  rw [hnext] at hsteps
  cases hsteps with
  | idle hscene => exact .goOn hnext (h _ _ _ (.missing hscene))
  | hidden hscene hanswer => exact .goOn hnext (h _ _ _ (.hidden hscene hanswer))
  | unannounced hscene hcall hanswer =>
      exact .goOn hnext (h _ _ _ (.unannounced hscene hcall hanswer))
  | arrive hscene hcall hanswer =>
      refine .goOn hnext (hbelow _ _ _ (Nat.lt_trans hless hcost) fun told fault s' hlist => ?_)
      exact h _ _ _ (.enters hscene hcall hanswer hlist)

theorem ends_leaving {limit : Nat} (hbelow : Below post limit) {s : Session} {target : Nat}
    {recorded : Bool} {frames : List Frame}
    (hcost : Toll.steps.ofFrames s (.leaving target recorded :: frames) < limit)
    (h : Leads post (.change target recorded) s frames) :
    Ends post s .going (.leaving target recorded :: frames) := by
  have hsteps := steps s .going (.leaving target recorded) frames
  rcases hnext : s.step .going (.leaving target recorded) frames with ⟨s₁, p⟩
  have hless := cost_step_lt hnext
  rw [hnext] at hsteps
  cases hsteps with
  | idle hidle => exact hidle.elim
  | leaveNone hscene =>
      refine .goOn hnext (ends_arriving hbelow (Nat.lt_trans hless hcost) ?_)
      exact fun told fault s' harrival => h _ _ _ (.nowhere hscene harrival)
  | @leave _ _ _ scene hscene =>
      cases hanswer : s.answer (.event (.sceneExit scene.index)) with
      | error e =>
          rw [hanswer] at hnext
          -- the failure leaves the commands of the old scene and the arrival
          exact .goOn hnext (.goOn rfl (.goOn rfl (h _ _ _ (.stays hscene hanswer))))
      | ok _ =>
          rw [hanswer] at hnext
          refine .goOn hnext (hbelow _ _ _ (Nat.lt_trans hless hcost) fun told fault s₁ hexit => ?_)
          cases fault with
          | some e =>
              -- the failure leaves the arrival
              exact .goOn rfl (h _ _ _ (.stuck hscene hanswer hexit))
          | none =>
              have hexitCost :
                  Toll.steps.ofFrames s₁ (.arriving target recorded :: frames) < limit := by
                rw [hexit.lasts.cost]
                exact Nat.lt_of_le_of_lt (cost_tail_le _ _ _) (Nat.lt_trans hless hcost)
              refine ends_arriving hbelow hexitCost fun told' fault' s' harrival => ?_
              exact h _ _ _ (.leaves hscene hanswer hexit harrival)

/-- The end of a command: a failure in it is reported, and its list goes on. -/
theorem ends_guarded {s : Session} {i : Instruction} {fault : Option Fault} {frames : List Frame}
    (hreports : s.Reports i fault) (h : Ends post (s.reported i fault) .going frames) :
    Ends post s (.ofFault fault) (.guarded i :: frames) := by
  cases fault with
  | none => exact .goOn rfl h
  | some e =>
      refine .goOn ?_ h
      show s.step (.failing e) (.guarded i) frames = (s.told (failed i e), .goOn .going frames)
      simp only [step]
      rw [emit, proceed_tell, show s.answer (.event (.error i.verb i.args e.message)) = .ok () from
        hreports e rfl]
      rfl

/-- A failure that cannot be reported goes on as the failure to do so. -/
theorem ends_unreported {s : Session} {i : Instruction} {e e' : Fault} {frames : List Frame}
    (hrefused : s.answer (failed i e) = .error e')
    (h : Ends post (s.told (failed i e)) (.failing e') frames) :
    Ends post s (.failing e) (.guarded i :: frames) := by
  refine .goOn ?_ h
  simp only [step]
  rw [emit, proceed_tell, show s.answer (.event (.error i.verb i.args e.message)) = .error e' from
    hrefused]
  rfl

/-- What is below the first command of a list costs less than the list. -/
theorem cost_rest_lt (s : Session) (i : Instruction) (rest : List Instruction)
    (frames : List Frame) :
    Toll.steps.ofFrames s (.commands rest :: frames) <
      Toll.steps.ofFrames s (.commands (i :: rest) :: frames) := by
  have hle := Toll.steps.command_le s i rest frames
  have hlink : Toll.steps.ofLink = 4 := rfl
  omega

theorem ends_below (limit : Nat) : Below post limit := by
  induction limit with
  | zero => exact fun s list frames hcost => absurd hcost (Nat.not_lt_zero _)
  | succ limit ih =>
      intro s list frames hcost h
      have hsteps := steps s .going (.commands list) frames
      rcases hnext : s.step .going (.commands list) frames with ⟨s₁, p⟩
      have hless := cost_step_lt hnext
      have hlimit : Toll.steps.ofFrames s₁ p.frames < limit :=
        Nat.lt_of_lt_of_le hless (Nat.le_of_lt_succ hcost)
      rw [hnext] at hsteps
      cases hsteps with
      | idle hidle =>
          cases list with
          | nil => exact .goOn hnext (h _ _ _ .nil)
          | cons i rest => exact .goOn hnext (h _ _ _ (.skipped hidle))
      | @unknown i rest _ hquit hverb =>
          refine .goOn hnext (ih s rest frames hlimit fun told fault s' hrest => ?_)
          exact h _ _ _ (.unknown hquit hverb hrest)
      | refused hquit hverb hanswer =>
          exact .goOn hnext (.goOn rfl (h _ _ _ (.refused hquit hverb hanswer)))
      | @command i rest _ verb outcome s₁ hquit hverb hanswer hperform =>
          -- whatever comes of the command, its end and the rest of the list follow
          have hend : ∀ parts fault s₂,
              Carries (.command verb i) (s.told (executed i)) parts fault s₂ →
              Ends post s₂ (.ofFault fault) (.guarded i :: .commands rest :: frames) := by
            intro parts fault s₂ hcommand
            have hlasts := (lasts_told s (executed i)).trans hcommand.lasts
            by_cases hreports : s₂.Reports i fault
            · refine ends_guarded hreports (ih _ _ _ ?_ ?_)
              · rw [(hlasts.trans (lasts_reported s₂ i fault)).cost]
                exact Nat.lt_of_lt_of_le (cost_rest_lt s i rest frames) (Nat.le_of_lt_succ hcost)
              · intro told fault' s' hrest
                exact h _ _ _ (.command hquit hverb hanswer hcommand hreports hrest)
            · obtain ⟨e, rfl, e', hrefused⟩ := exists_refused_of_not_reports hreports
              refine ends_unreported hrefused (.goOn rfl ?_)
              exact h _ _ _ (.unreported hquit hverb hanswer hcommand hrefused)
          have hperforms := performs verb i (s.told (executed i))
          rw [hperform] at hperforms
          cases hperforms with
          | fails hserves =>
              obtain ⟨entries, hadds⟩ := adds_of_serves hserves
              exact .goOn hnext (hend _ _ _ (.fails hperform hadds))
          | done hserves =>
              obtain ⟨entries, hadds⟩ := adds_of_serves hserves
              exact .goOn hnext (hend _ _ _ (.done hperform hadds))
          | waits hserves =>
              obtain ⟨entries, hadds⟩ := adds_of_serves hserves
              refine .wait hnext fun s₂ hmeanwhile => ?_
              obtain ⟨entries', hadds'⟩ := adds_of_meanwhile hmeanwhile
              exact hend _ _ _ (.waits hperform hadds hmeanwhile hadds')
          | nests hdepth =>
              refine .goOn hnext (ih _ _ _ hlimit fun told fault s₂ hlist => ?_)
              have hended := hend _ _ _ (.nests hperform hlist)
              cases fault <;> exact .goOn rfl hended
          | changes hserves hfree =>
              obtain ⟨entries, hadds⟩ := adds_of_serves hserves
              refine .goOn hnext (ends_leaving ih hlimit fun told fault s₂ hchange => ?_)
              have hended := hend _ _ _ (.changes hperform ⟨hadds.log, hadds.plain⟩ hchange)
              cases fault <;> exact .goOn rfl hended

/-- A list of commands on a stack is carried out by the rules, whatever is done in its pauses. -/
theorem ends_commands (s : Session) (list : List Instruction) :
    Ends (fun s' result => ∃ told fault, result = (Flow.ofFault fault).result ∧
      Carries (.list list) s told fault s') s .going [.commands list] :=
  ends_below _ s list [] (Nat.lt_succ_self _) fun told fault _ hlist =>
    .finished ⟨told, fault, rfl, hlist⟩

end

/-! ## What is told -/

theorem toList_log_told_of_records (hrecords : s.presentation.records = true) (entry : LogEntry) :
    (s.told entry).log.toList = s.log.toList ++ [entry] := by
  rw [toList_log_told, if_pos hrecords]

theorem toList_log_hidden (hrecords : s.presentation.records = true) (target : Nat)
    (recorded : Bool) (entry : LogEntry) :
    ((s.shown target recorded).told entry).log.toList = s.log.toList ++ [entry] :=
  toList_log_told_of_records (s := s.shown target recorded) hrecords entry

theorem toList_log_announced (hrecords : s.presentation.records = true) (target : Nat)
    (recorded : Bool) (entry entry' : LogEntry) :
    (((s.shown target recorded).told entry).told entry').log.toList =
      s.log.toList ++ [entry, entry'] := by
  have htold : ((s.shown target recorded).told entry).presentation.records = true := by
    rw [presentation_told]
    exact hrecords
  rw [toList_log_told_of_records htold, toList_log_hidden hrecords, List.append_assoc]
  rfl

/-- A presentation that keeps a log has all that is told in it. -/
theorem Carries.log {task : Task} {told : List Told} {fault : Option Fault}
    (h : Carries task s told fault s') (hrecords : s.presentation.records = true) :
    s'.log.toList = s.log.toList ++ Told.entriesAll told := by
  induction h with
  | nil | skipped hquit | missing hscene => exact (List.append_nil _).symm
  | unknown hquit hverb _ ih => exact ih hrecords
  | refused hquit hverb hanswer => exact toList_log_told_of_records hrecords _
  | @command s s₁ s' i rest verb parts told fault _ hquit hverb hanswer hcommand _ _ ih ihrest =>
      have htold : (s.told (executed i)).presentation.records = true := by
        rw [presentation_told]
        exact hrecords
      have hrecords₁ : s₁.presentation.records = true := by
        rw [hcommand.lasts.presentation]
        exact htold
      have hreported : (s₁.reported i fault).log.toList =
          s₁.log.toList ++ Told.report i fault := by
        cases fault with
        | none => exact (List.append_nil _).symm
        | some e => exact toList_log_told_of_records hrecords₁ _
      have hrecords₂ : (s₁.reported i fault).presentation.records = true := by
        rw [(lasts_reported s₁ i fault).presentation]
        exact hrecords₁
      rw [ihrest hrecords₂, hreported, ih htold, toList_log_told_of_records hrecords]
      simp only [Told.entriesAll, Told.entries, List.append_assoc, List.cons_append,
        List.nil_append]
  | @unreported s s₁ i rest verb parts e e' hquit hverb hanswer hcommand hrefused ih =>
      have htold : (s.told (executed i)).presentation.records = true := by
        rw [presentation_told]
        exact hrecords
      have hrecords₁ : s₁.presentation.records = true := by
        rw [hcommand.lasts.presentation]
        exact htold
      rw [toList_log_told_of_records hrecords₁, ih htold, toList_log_told_of_records hrecords]
      simp only [Told.entriesAll, Told.entries, Told.report, List.append_assoc, List.cons_append,
        List.nil_append, List.append_nil]
  | done hperform hadds | fails hperform hadds =>
      rw [Told.entriesAll_map_entry]
      exact hadds.log
  | waits hperform hadds hmeanwhile hadds' =>
      rw [Told.entriesAll_map_entry, hadds'.log, hadds.log, List.append_assoc]
  | nests hperform _ ih =>
      obtain rfl := eq_of_nests hperform
      exact ih hrecords
  | changes hperform hadds _ ih =>
      obtain ⟨s₀, hserves, hfree, rfl⟩ := eq_of_changes hperform
      have hlog := ih (hserves.presentation ▸ hrecords)
      rw [hadds.log, List.append_assoc] at hlog
      rw [Told.entriesAll_append, Told.entriesAll_map_entry]
      exact hlog
  | nowhere hscene _ ih => exact ih hrecords
  | stays hscene hanswer => exact toList_log_told_of_records hrecords _
  | @stuck s s₁ target recorded told e scene hscene hanswer hexit ih =>
      have htold : (s.told (.event (.sceneExit scene.index))).presentation.records = true := by
        rw [presentation_told]
        exact hrecords
      rw [ih htold, toList_log_told_of_records hrecords]
      simp only [Told.entriesAll, Told.entries, List.append_assoc, List.cons_append,
        List.nil_append]
  | @leaves s s₁ s' target recorded told told' fault scene hscene hanswer hexit _ ih iharrival =>
      have htold : (s.told (.event (.sceneExit scene.index))).presentation.records = true := by
        rw [presentation_told]
        exact hrecords
      have hrecords₁ : s₁.presentation.records = true := by
        rw [hexit.lasts.presentation]
        exact htold
      rw [iharrival hrecords₁, ih htold, toList_log_told_of_records hrecords]
      simp only [Told.entriesAll, Told.entries, Told.entriesAll_append, List.append_assoc,
        List.cons_append, List.nil_append]
  | hidden hscene hanswer => exact toList_log_hidden hrecords _ _ _
  | unannounced hscene hcall hanswer => exact toList_log_announced hrecords _ _ _ _
  | @enters s s' target recorded scene told fault hscene hcall hanswer _ ih =>
      have hannounced := lasts_announced s target recorded (.call (.goToScene target))
        (.event (.sceneEnter target scene.name))
      have hlog := ih (hannounced.presentation ▸ hrecords)
      rw [toList_log_announced hrecords, List.append_assoc] at hlog
      exact hlog

/-- The entries of commands and those of failures are told for the commands of a forest, one for
each that begins and one for each that fails. -/
structure Faithful (told : List Told) : Prop where
  executions : (Told.entriesAll told).filter LogEntry.isExecution =
    (Told.commandsAll told).map executed
  failures : (Told.entriesAll told).filter LogEntry.isFailure =
    (Told.failuresAll told).map fun f => failed f.1 f.2

theorem faithful_nil : Faithful [] := ⟨rfl, rfl⟩

theorem Faithful.append {told told' : List Told} (h : Faithful told) (h' : Faithful told') :
    Faithful (told ++ told') where
  executions := by
    rw [Told.entriesAll_append, Told.commandsAll_append, List.filter_append, h.executions,
      h'.executions, List.map_append]
  failures := by
    rw [Told.entriesAll_append, Told.failuresAll_append, List.filter_append, h.failures,
      h'.failures, List.map_append]

/-- An entry of no command and no failure. -/
theorem faithful_entry {e : LogEntry} (hexecution : e.isExecution = false)
    (hfailure : e.isFailure = false) : Faithful [.entry e] := by
  refine ⟨?_, ?_⟩
  · show [e].filter LogEntry.isExecution = []
    exact List.filter_cons_of_neg (by rw [hexecution]; exact Bool.false_ne_true)
  · show [e].filter LogEntry.isFailure = []
    exact List.filter_cons_of_neg (by rw [hfailure]; exact Bool.false_ne_true)

theorem Adds.faithful {entries : List LogEntry} (h : Adds s entries s') :
    Faithful (entries.map .entry) := by
  have hplain := h.plain
  clear h
  induction entries with
  | nil => exact faithful_nil
  | cons e es ih =>
      obtain ⟨hexecution, hfailure⟩ := hplain e List.mem_cons_self
      exact (faithful_entry hexecution hfailure).append
        (ih fun e' he' => hplain e' (List.mem_cons_of_mem _ he'))

theorem Faithful.command {parts : List Told} (h : Faithful parts) (i : Instruction)
    (fault : Option Fault) : Faithful [.command i parts fault] := by
  have hexecutions := h.executions
  have hfailures := h.failures
  refine ⟨?_, ?_⟩
  · have hreport : (Told.report i fault).filter LogEntry.isExecution = [] := by
      cases fault <;> rfl
    simp only [Told.entriesAll, Told.entries, Told.commandsAll, Told.commands, List.append_nil]
    rw [List.filter_cons_of_pos rfl, List.filter_append, hexecutions, hreport, List.append_nil,
      List.map_cons]
  · have hreport : (Told.report i fault).filter LogEntry.isFailure =
        (fault.map fun e => (i, e)).toList.map fun f => failed f.1 f.2 := by
      cases fault <;> rfl
    simp only [Told.entriesAll, Told.entries, Told.failuresAll, Told.failures, List.append_nil]
    rw [List.filter_cons_of_neg Bool.false_ne_true, List.filter_append, hfailures, hreport,
      List.map_append]

/-- Of what is carried out, each command that begins is told of once, and each that fails is
reported once, at whatever depth. -/
theorem Carries.faithful {task : Task} {told : List Told} {fault : Option Fault}
    (h : Carries task s told fault s') : Faithful told := by
  induction h with
  | nil | skipped hquit | missing hscene => exact faithful_nil
  | unknown hquit hverb _ ih => exact ih
  | refused hquit hverb hanswer => exact faithful_nil.command _ _
  | command hquit hverb hanswer _ _ _ ih ihrest => exact (ih.command _ _).append ihrest
  | unreported hquit hverb hanswer _ _ ih => exact ih.command _ _
  | done hperform hadds | fails hperform hadds => exact hadds.faithful
  | waits hperform hadds hmeanwhile hadds' =>
      rw [List.map_append]
      exact hadds.faithful.append hadds'.faithful
  | nests hperform _ ih => exact ih
  | changes hperform hadds _ ih => exact hadds.faithful.append ih
  | nowhere hscene _ ih => exact ih
  | stays hscene hanswer => exact faithful_entry rfl rfl
  | stuck hscene hanswer _ ih => exact (faithful_entry rfl rfl).append ih
  | leaves hscene hanswer _ _ ih iharrival =>
      exact (faithful_entry rfl rfl).append (ih.append iharrival)
  | hidden hscene hanswer => exact faithful_entry rfl rfl
  | unannounced hscene hcall hanswer =>
      exact (faithful_entry rfl rfl).append (faithful_entry rfl rfl)
  | enters hscene hcall hanswer _ ih =>
      exact (faithful_entry rfl rfl).append ((faithful_entry rfl rfl).append ih)

/-- Unless the project is quit, every command of a list that has a known verb is told of, in the
order of the list. -/
theorem Carries.commands {list : List Instruction} {told : List Told}
    (h : Carries (.list list) s told none s') (hgoing : s'.quit = false) :
    told.filterMap Told.command? = list.filter fun i => (Verb.ofName? i.verb).isSome := by
  generalize htask : Task.list list = task at h
  generalize hfault : (none : Option Fault) = fault at h
  induction h generalizing list with
  | nil =>
      cases htask
      rfl
  | skipped hquit =>
      rw [hgoing] at hquit
      nomatch hquit
  | unknown hquit hverb _ ih =>
      cases htask
      rw [ih hgoing rfl hfault, List.filter_cons_of_neg]
      rw [hverb]
      exact Bool.false_ne_true
  | refused hquit hverb hanswer | unreported hquit hverb hanswer _ _ => nomatch hfault
  | @command s s₁ s' i rest verb parts told fault _ hquit hverb hanswer _ _ _ _ ih =>
      cases htask
      have hrest := ih hgoing rfl hfault
      rw [List.filter_cons_of_pos (by rw [hverb]; rfl), ← hrest]
      rfl
  | _ => nomatch htask

/-- A forest accounts for a list that is carried out without a failure of its own: it keeps to the
rules, it has every command of the list with a known verb in order unless the project is quit, and
a log has its entries, among which are one for each command that begins and one for each that
fails. -/
structure Accounts (told : List Told) (list : List Instruction) (s s' : Session) : Prop
    extends Faithful told where
  carries : Carries (.list list) s told none s'
  commands : s'.quit = false →
    told.filterMap Told.command? = list.filter fun i => (Verb.ofName? i.verb).isSome
  log : s.presentation.records = true → s'.log.toList = s.log.toList ++ Told.entriesAll told

theorem Carries.accounts {list : List Instruction} {told : List Told}
    (h : Carries (.list list) s told none s') : Accounts told list s s' :=
  ⟨h.faithful, h, h.commands, h.log⟩

end Session

namespace Machine

/-- Unless the presentation refuses events, a call that runs a list completes without a failure,
and there is an account of it: no failing command keeps the rest of the list from its turn, and each
failing command, at whatever depth, is reported once. -/
theorem start_commands_accounts (m : Machine) (owner : Owner) (reply : Reply)
    (list : List Instruction)
    (hhears : m.session.presentation.HearsEvents) :
    Completes owner
      (fun s result => result = .ok reply ∧
        ∃ told, Session.Accounts told list m.executing.session s)
      (m.start { owner, work := .commands list, reply }) := by
  have hstart : m.start { owner, work := .commands list, reply } =
      m.executing.halt owner reply (m.executing.session.run .going [.commands list]) :=
    runFrames_eq_halt m.executing owner reply [.commands list]
  rw [hstart]
  refine (completes_halt (Session.ends_commands m.executing.session list) m.executing
    (Session.cost_lt_stackSteps _ _)).imp ?_
  rintro s result ⟨left, rfl, told, fault, rfl, hcarries⟩
  obtain rfl := hcarries.list_fault hhears
  exact ⟨rfl, told, hcarries.accounts⟩

/-- A project without scenes, whose presentation plays no sounds. -/
def silent : Machine where
  session := {
    navigation := { scenes := [] }, presentation := { refusals := [("play_wave", "no device")] } }

/-- A sound that cannot be played and a scene that does not exist keep no command from its turn. -/
theorem start_commands_accounts_silent :
    silent.session.presentation.HearsEvents ∧
    Completes (.user 0)
      (fun s result => result = .ok .nothing ∧ ∃ told,
        Session.Accounts told [⟨"PLAYWAV", "a.wav"⟩, ⟨"SCENE", "9"⟩, ⟨"REM", ""⟩]
          silent.executing.session s)
      (silent.start { owner := .user 0
                      work := .commands [⟨"PLAYWAV", "a.wav"⟩, ⟨"SCENE", "9"⟩, ⟨"REM", ""⟩] }) :=
  ⟨fun _ _ => rfl, start_commands_accounts silent (.user 0) .nothing _ fun _ _ => rfl⟩

end Machine

end PointAndClick
