import Mathlib.Data.List.Basic
import PointAndClick.Proofs.Play.PauseFlags
import PointAndClick.Proofs.Play.Upkeep

/-!
# The end of a project

The command that ends a project makes the call to do so right after it is told of, and it is the
last command that is told of: what was begun before goes on, but no command in it is executed any
more (`LogEntry.Ending`). So it is in every session, whatever is done with it
(`Machine.quitting_is_final`).
-/

set_option autoImplicit false

namespace PointAndClick

/-! ## Logs that end -/

namespace LogEntry

/-- The entry neither tells of a command nor ends the project. -/
def IsMinor (e : LogEntry) : Prop := e.isExecution = false ∧ e ≠ .call .quit

theorem IsOutside.isMinor {e : LogEntry} (h : e.IsOutside) : e.IsMinor := by
  refine ⟨h.not_isExecution, ?_⟩
  rintro rfl
  exact h.elim

/-- Nothing in a log ends the project: neither a call nor a command, unless the presentation refused
to be told of the command, which keeps it from being executed. -/
structure Unended (p : Presentation) (log : List LogEntry) : Prop where
  call : .call .quit ∉ log
  command : ∀ before args after, log = before ++ .event (.commandExecute "QUIT" args) :: after →
    p.refusals before.length (.event (.commandExecute "QUIT" args)) ≠ none

/-- How a log tells of the end of a project: nothing ended it, or else a command did, and it was the
last one. -/
inductive Ending (p : Presentation) (quit : Bool) (log : List LogEntry) : Prop
  | unended (h : Unended p log)
  | ended {before after : List LogEntry} {args : String} (hquit : quit = true)
      (hlog : log = before ++ .event (.commandExecute "QUIT" args) :: .call .quit :: after)
      (hbefore : Unended p before) (hafter : ∀ e ∈ after, e.IsMinor)

variable {p : Presentation} {quit : Bool} {log entries before after : List LogEntry}

theorem commandExecute_not_mem (h : ∀ e ∈ entries, e.IsMinor) (verb args : String) :
    .event (.commandExecute verb args) ∉ entries :=
  fun hmem => Bool.noConfusion (h _ hmem).1

theorem quit_not_mem (h : ∀ e ∈ entries, e.IsMinor) : .call .quit ∉ entries :=
  fun hmem => (h _ hmem).2 rfl

/-- An entry of a log that goes on stands in its first part, or in what was added. -/
theorem split_append {e : LogEntry} (hlog : log ++ entries = before ++ e :: after) :
    (∃ rest, log = before ++ e :: rest) ∨
      ∃ between, before = log ++ between ∧ entries = between ++ e :: after := by
  rcases List.append_eq_append_iff.mp hlog with ⟨between, hbefore, hentries⟩ | ⟨rest, hold, hrest⟩
  · exact Or.inr ⟨between, hbefore, hentries⟩
  · cases rest with
    | nil =>
        rw [List.append_nil] at hold
        exact Or.inr ⟨[], by rw [hold, List.append_nil], hrest.symm⟩
    | cons first rest =>
        obtain ⟨rfl, -⟩ := List.cons.inj hrest
        exact Or.inl ⟨rest, hold⟩

theorem unended_nil (p : Presentation) : Unended p [] where
  call := List.not_mem_nil
  command before args after hlog := by simp at hlog

theorem Unended.append (h : Unended p log) (hentries : ∀ e ∈ entries, e.IsMinor) :
    Unended p (log ++ entries) where
  call hmem := (List.mem_append.mp hmem).elim h.call (quit_not_mem hentries)
  command before args after hlog := by
    rcases split_append hlog with ⟨rest, hold⟩ | ⟨between, -, hnew⟩
    · exact h.command before args rest hold
    · refine absurd ?_ (commandExecute_not_mem hentries "QUIT" args)
      rw [hnew]
      exact List.mem_append_right between List.mem_cons_self

/-- Another command does not end the project, and neither does one that is not executed. -/
theorem Unended.append_command (h : Unended p log) {verb args : String}
    (hverb : p.refusals log.length (.event (.commandExecute verb args)) = none → verb ≠ "QUIT") :
    Unended p (log ++ [.event (.commandExecute verb args)]) where
  call hmem := by
    rcases List.mem_append.mp hmem with hold | hnew
    · exact h.call hold
    · nomatch List.mem_singleton.mp hnew
  command before args' after hlog := by
    rcases split_append hlog with ⟨rest, hold⟩ | ⟨between, hbefore, hnew⟩
    · exact h.command before args' rest hold
    · cases between with
      | nil =>
          obtain ⟨hsame, -⟩ := List.cons.inj hnew
          simp only [event.injEq, Event.commandExecute.injEq] at hsame
          obtain ⟨rfl, rfl⟩ := hsame
          rw [hbefore, List.append_nil]
          exact fun haccepted => hverb haccepted rfl
      | cons _ _ => simp at hnew

theorem Ending.append (h : Ending p quit log) {quit' : Bool} (hquit' : quit = true → quit' = true)
    (hentries : ∀ e ∈ entries, e.IsMinor) : Ending p quit' (log ++ entries) := by
  cases h with
  | unended h => exact .unended (h.append hentries)
  | @ended before after args hquit hlog hbefore hafter =>
      have hlog : log ++ entries = before ++ .event (.commandExecute "QUIT" args) ::
          .call .quit :: (after ++ entries) := by
        rw [hlog, List.append_assoc, List.cons_append, List.cons_append]
      refine .ended (hquit' hquit) hlog hbefore fun e he => ?_
      exact (List.mem_append.mp he).elim (hafter e) (hentries e)

/-- The call that ends the project follows its command, and no other command follows it. -/
theorem Ending.around_call (h : Ending p quit log) (hlog : log = before ++ .call .quit :: after) :
    quit = true ∧ (∃ args, before.getLast? = some (.event (.commandExecute "QUIT" args))) ∧
      ∀ verb args, .event (.commandExecute verb args) ∉ after := by
  cases h with
  | unended h => exact absurd (hlog ▸ List.mem_append_right before List.mem_cons_self) h.call
  | @ended first rest args hquit hlog' hfirst hrest =>
      have hbefore : .call .quit ∉ first ++ [.event (.commandExecute "QUIT" args)] := by
        rw [List.mem_append, List.mem_singleton]
        exact fun hmem => hmem.elim hfirst.call nofun
      have hsplit : (first ++ [.event (.commandExecute "QUIT" args)]) ++ .call .quit :: rest =
          before ++ .call .quit :: after := by
        rw [← hlog, hlog', List.append_assoc, List.singleton_append]
      -- the call is there only once
      obtain ⟨rfl, -, rfl⟩ :=
        (List.append_cons_inj_of_notMem hbefore (quit_not_mem hrest)).mp hsplit
      exact ⟨hquit, ⟨args, List.getLast?_concat⟩, commandExecute_not_mem hrest⟩

/-- A command that ends the project is followed by the call to do so, unless it was refused. -/
theorem Ending.behind_command (h : Ending p quit log) {args : String}
    (hlog : log = before ++ .event (.commandExecute "QUIT" args) :: after)
    (haccepted : p.refusals before.length (.event (.commandExecute "QUIT" args)) = none) :
    after.head? = some (.call .quit) := by
  cases h with
  | unended h => exact absurd haccepted (h.command before args after hlog)
  | @ended first rest args' _ hlog' hfirst hrest =>
      have hafter : .event (.commandExecute "QUIT" args) ∉ .call .quit :: rest := by
        rw [List.mem_cons]
        exact fun hmem => hmem.elim nofun (commandExecute_not_mem hrest "QUIT" args)
      rcases split_append (hlog'.symm.trans hlog) with ⟨between, hfirst'⟩ | ⟨between, -, hsame⟩
      · exact absurd haccepted (hfirst.command before args between hfirst')
      · cases between with
        | nil =>
            obtain ⟨-, rfl⟩ := List.cons.inj hsame
            rfl
        | cons e between =>
            obtain ⟨-, hlater⟩ := List.cons.inj hsame
            exact absurd (hlater ▸ List.mem_append_right between List.mem_cons_self) hafter

end LogEntry

open LogEntry

/-- Only one name is that of the command that ends the project. -/
theorem Verb.ofName?_eq_quit_iff {name : String} : ofName? name = some .quit ↔ name = "QUIT" := by
  constructor
  · intro h
    obtain ⟨before, after, htable, -⟩ := List.lookup_eq_some_iff.mp h
    have hmem : (name, quit) ∈ table := htable ▸ List.mem_append_right before List.mem_cons_self
    have honly : ∀ e ∈ table, e.2 = quit → e.1 = "QUIT" := by decide
    exact honly _ hmem rfl
  · rintro rfl
    rfl

namespace Session

variable {s s' : Session} {p : Presentation} {i : Instruction} {frames : List Frame}

/-! ## What ends no project -/

/-- What is done besides executing commands: only minor entries are told, and a project that is over
stays so. -/
structure Digresses (s s' : Session) : Prop where
  presentation : s'.presentation = s.presentation
  quit : s.quit = true → s'.quit = true
  log : ∃ entries, s'.log.toList = s.log.toList ++ entries ∧ ∀ e ∈ entries, e.IsMinor

theorem digresses_of_eq (hpresentation : s'.presentation = s.presentation)
    (hquit : s'.quit = s.quit) (hlog : s'.log = s.log) : Digresses s s' :=
  ⟨hpresentation, fun h => hquit.trans h, [], by rw [hlog, List.append_nil], nofun⟩

theorem Digresses.trans {s₁ s₂ s₃ : Session} (h : Digresses s₁ s₂)
    (h' : Digresses s₂ s₃) : Digresses s₁ s₃ := by
  obtain ⟨entries, hlog, hminor⟩ := h.log
  obtain ⟨entries', hlog', hminor'⟩ := h'.log
  refine ⟨h'.presentation.trans h.presentation, fun hquit => h'.quit (h.quit hquit),
    entries ++ entries', by rw [hlog', hlog, List.append_assoc], fun e he => ?_⟩
  exact (List.mem_append.mp he).elim (hminor e) (hminor' e)

@[simp] theorem quit_told (entry : LogEntry) : (s.told entry).quit = s.quit := by
  unfold told
  split <;> rfl

theorem digresses_told (s : Session) {entry : LogEntry} (h : entry.IsMinor) :
    Digresses s (s.told entry) := by
  refine ⟨presentation_told entry, fun hquit => (quit_told entry).trans hquit, _,
    toList_log_told s entry, fun e he => ?_⟩
  split at he
  · rwa [List.mem_singleton.mp he]
  · nomatch he

/-! ### What a user does at once -/

theorem restores_digresses : Restores Digresses where
  refl _ := digresses_of_eq rfl rfl rfl
  trans := .trans
  values _ _ := digresses_of_eq rfl rfl rfl
  navigation _ _ := digresses_of_eq rfl rfl rfl
  hovered _ := digresses_of_eq rfl rfl rfl
  timers _ _ := digresses_of_eq rfl rfl rfl
  stopTimers _ := digresses_of_eq rfl rfl rfl
  turns _ _ := digresses_of_eq rfl rfl rfl

theorem Meanwhile.digresses (h : Meanwhile s s') : Digresses s s' := by
  obtain ⟨entries, hlog, houtside⟩ := h.log
  exact ⟨h.presentation, fun hquit => h.quit.trans hquit, entries, hlog,
    fun e he => (houtside e he).isMinor⟩

theorem digresses_plan (a : Machine.Action) (s : Session) : Digresses s (Machine.plan a s).2 := by
  by_cases hrestore : ∃ state, a = .restore state
  · obtain ⟨state, rfl⟩ := hrestore
    rw [Machine.plan, snd_reply]
    exact restores_digresses.restore state s
  · exact (meanwhile_plan (fun state ha => hrestore ⟨state, ha⟩) s).digresses

/-! ### Commands -/

theorem Performs.digresses {outcome : Except Fault Next} (h : Performs s (outcome, s'))
    (hother : Grows (· ≠ .call .quit) s s') : Digresses s s' := by
  obtain ⟨entries, hlog, hother⟩ := hother.log
  have hserved {s₁ : Session} (hserves : Serves s s₁)
      (hpresentation : s'.presentation = s₁.presentation) (hquit : s'.quit = s₁.quit)
      (hsame : s'.log = s₁.log) : Digresses s s' := by
    obtain ⟨entries', hlog', hown⟩ := hserves.log
    -- both say what was added to the log, so they speak of the same entries
    rw [← hsame, hlog, List.append_cancel_left_eq] at hlog'
    subst hlog'
    exact ⟨hpresentation.trans hserves.presentation, fun h => hquit.trans (hserves.quit h),
      entries, hlog, fun e he => ⟨(hown e he).not_isExecution, hother e he⟩⟩
  cases h with
  | fails hserves | done hserves | waits hserves => exact hserved hserves rfl rfl rfl
  | nests _ => exact digresses_of_eq rfl rfl rfl
  | changes hserves _ => exact hserved hserves rfl rfl rfl

/-- No other command ends the project. -/
theorem digresses_perform {verb : Verb} (hverb : verb ≠ .quit) (i : Instruction) (s : Session) :
    Digresses s (perform verb i s).2 := by
  have hgrows : Grows (· ≠ .call .quit) s (perform verb i s).2 :=
    growsAt_perform verb i s fun e he hquit => hverb (he hquit)
  exact Performs.digresses (performs verb i s) hgrows

/-! ## Sessions that end -/

/-- The log of a session with a presentation tells how its project ended, if it did. -/
structure Endings (p : Presentation) (s : Session) : Prop where
  presentation : s.presentation = p
  log : Ending p s.quit s.log.toList

theorem Endings.digresses (h : Endings p s) (hdigresses : Digresses s s') : Endings p s' := by
  obtain ⟨entries, hlog, hminor⟩ := hdigresses.log
  refine ⟨hdigresses.presentation.trans h.presentation, ?_⟩
  rw [hlog]
  exact h.log.append hdigresses.quit hminor

theorem Endings.told (h : Endings p s) (entry : LogEntry)
    (hentry : entry.IsMinor := by exact ⟨rfl, nofun⟩) : Endings p (s.told entry) :=
  h.digresses (digresses_told s hentry)

/-- As long as the project goes on, nothing ended it. -/
theorem Endings.unended_of_quit (h : Endings p s) (hquit : s.quit = false) :
    Unended p s.log.toList := by
  cases h.log with
  | unended hlog => exact hlog
  | ended hover =>
      rw [hquit] at hover
      nomatch hover

/-- A command is told of that does not end the project, or one that is not executed then. -/
theorem Endings.told_executed (h : Endings p s) (hquit : s.quit = false)
    (hverb : p.refusals s.log.size (executed i) = none → i.verb ≠ "QUIT") :
    Endings p (s.told (executed i)) := by
  have hunended := h.unended_of_quit hquit
  refine ⟨(presentation_told _).trans h.presentation, .unended ?_⟩
  rw [toList_log_told]
  split
  · exact hunended.append_command hverb
  · rwa [List.append_nil]

/-- The command that ends the project marks that it is over, and then makes the call. -/
theorem perform_quit (i : Instruction) (s : Session) :
    (perform .quit i s).2 = Session.told { s with quit := true } (.call .quit) := by
  simp only [perform]
  rw [modify_bind_apply, bind_apply, call, tell_apply]
  cases Session.answer { s with quit := true } (.call .quit) <;> rfl

/-- The command that ends the project is the last one. -/
theorem Endings.perform_quit (h : Endings p s) (hquit : s.quit = false) (hverb : i.verb = "QUIT") :
    Endings p (perform .quit i (s.told (executed i))).2 := by
  have hunended := h.unended_of_quit hquit
  rw [Session.perform_quit]
  refine ⟨?_, ?_⟩
  · rw [presentation_told]
    exact (presentation_told _).trans h.presentation
  · rw [quit_told, toList_log_told]
    dsimp only
    rw [presentation_told, toList_log_told, executed, hverb]
    split
    · rw [List.append_assoc, List.singleton_append]
      exact .ended rfl rfl hunended (List.forall_mem_nil _)
    · rw [List.append_nil, List.append_nil]
      exact .unended hunended

/-- Whatever a step does, the command that ends the project is the last one. -/
theorem Endings.step {flow : Flow} {frame : Frame} {progress : Progress}
    (hsteps : Steps s flow frame frames (s', progress)) (h : Endings p s) : Endings p s' := by
  have hshown (target : Nat) (recorded : Bool) : Endings p (s.shown target recorded) :=
    h.digresses (digresses_of_eq rfl rfl rfl)
  cases hsteps with
  | idle _ | unknown _ _ | leaveNone _ => exact h
  | refused hquit _ hanswer =>
      refine h.told_executed hquit fun haccepted => ?_
      rw [answer, h.presentation, haccepted] at hanswer
      nomatch hanswer
  | @command i _ _ verb _ _ hquit hverb _ hperform =>
      obtain rfl : s' = (perform verb i (s.told (executed i))).2 := by rw [hperform]
      -- a command is executed only as long as the project goes on
      by_cases hends : verb = .quit
      · subst hends
        exact h.perform_quit hquit (Verb.ofName?_eq_quit_iff.mp hverb)
      · have hother : i.verb ≠ "QUIT" := by
          intro hname
          rw [Verb.ofName?_eq_quit_iff.mpr hname] at hverb
          exact hends (Option.some.inj hverb).symm
        exact (h.told_executed hquit fun _ => hother).digresses (digresses_perform hends i _)
  | report => exact h.told _
  | nested | transition => exact h.digresses (digresses_of_eq rfl rfl rfl)
  | leave _ => exact h.told _
  | hidden _ _ => exact (hshown _ _).told _
  | unannounced _ _ _ | arrive _ _ _ => exact ((hshown _ _).told _).told _

theorem upkeep_endings (p : Presentation) :
    Upkeep (fun _ => True) (fun _ => True) fun s _ _ => Endings p s where
  free _ _ _ h := h.digresses (digresses_of_eq rfl rfl rfl)
  idle h := h
  list _ h := h
  change _ _ _ h := h.digresses (digresses_of_eq rfl rfl rfl)
  tick _ _ h := h.told _
  step := Endings.step
  plan {_ _ a} _ h := h.digresses (digresses_plan a _)
  asks _ _ := trivial
  ticks _ := trivial

end Session

namespace Machine

open Session

/-- Whatever users, timers and the presentation do, and whichever calls to it and events it refuses:
where the log has the call that ends the project, it was the command for this that was told of just
before, no command is told of later, and the project is over. And wherever that command is told of,
at whatever depth, and the presentation does not refuse to be told, the call comes next. -/
theorem quitting_is_final (p : Project) (presentation : Presentation) (minInterval : Int)
    (moves : List Move) :
    let s := ((ofSession (Session.ofProject p presentation minInterval)).after moves).session
    (∀ before after, s.log.toList = before ++ .call .quit :: after →
      s.quit = true ∧ (∃ args, before.getLast? = some (.event (.commandExecute "QUIT" args))) ∧
        ∀ verb args, .event (.commandExecute verb args) ∉ after) ∧
    (∀ before args after,
      s.log.toList = before ++ .event (.commandExecute "QUIT" args) :: after →
        presentation.refusals before.length (.event (.commandExecute "QUIT" args)) = none →
          after.head? = some (.call .quit)) := by
  intro s
  have hfresh : Upkept (fun _ => True) (fun s _ _ => Endings presentation s)
      (Ledger.ofSession (Session.ofProject p presentation minInterval)).machine :=
    ⟨rfl, fun _ _ => trivial, rfl, .unended (unended_nil presentation)⟩
  have hmoves : ∀ move ∈ moves, move.Respects (fun _ => True) (fun _ => True) := by
    intro move _
    cases move <;> trivial
  have hupkept := upkept_after (upkeep_endings presentation) (Ledger.fair_ofSession rfl rfl) hfresh
    hmoves
  rw [Ledger.machine_after (Ledger.fair_ofSession rfl rfl)] at hupkept
  have hends : Endings presentation s := hupkept.holds
  exact ⟨fun _ _ hlog => hends.log.around_call hlog,
    fun _ _ _ hlog haccepted => hends.log.behind_command hlog haccepted⟩

/-- A command inside another ends the project; neither the rest of its list nor another list is
executed. -/
example :
    let p : Project := { scenes := [{ index := 0 }] }
    let m := (ofSession (Session.ofProject p {} 16)).after
      [.act (.execute [⟨"PLAYCMD", "QUIT"⟩, ⟨"REM", ""⟩]), .act (.execute [⟨"REM", ""⟩])]
    m.session.log.toList = [.event (.commandExecute "PLAYCMD" "QUIT"),
      .event (.commandExecute "QUIT" ""), .call .quit] := by
  decide +kernel

end Machine

end PointAndClick
