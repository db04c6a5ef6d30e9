import PointAndClick.Proofs.Play.Pauses
import PointAndClick.Proofs.Play.Steps

/-!
# From the parts to the whole

All that a step of a list does to a session is made up of a few kinds of change. A relation between
sessions that has room for each kind by itself follows a list to its end (`Session.Follows.run`).

What a machine does to its session is made up of such runs, and of what is done around them. A
relation that has room for these spans whatever moves the machine makes (`Machine.Spans.after`),
also where it does not hold of the single steps of a run.
-/

set_option autoImplicit false

namespace PointAndClick

/-- The entry tells of a tick. -/
def LogEntry.isTick : LogEntry → Bool
  | .event (.timerTick ..) => true
  | _ => false

theorem LogEntry.IsPlain.isTick_eq_false {entry : LogEntry} (h : entry.IsPlain) :
    entry.isTick = false := by
  unfold isTick
  split
  · exact h.elim
  · rfl

theorem LogEntry.IsOutside.isTick_eq_false {entry : LogEntry} (h : entry.IsOutside) :
    entry.isTick = false := by
  unfold isTick
  split
  · exact h.elim
  · rfl

theorem LogEntry.IsOutside.change?_eq_none {entry : LogEntry} (h : entry.IsOutside) :
    entry.change? = none := by
  unfold change?
  split
  · exact h.elim
  · rfl

namespace Session

/-! ## Commands -/

/-- A relation between sessions that covers whatever a command does by itself, but to end the
project. -/
structure Handles (R : Session → Session → Prop) : Prop extends Allows R where
  depth (s : Session) (depth : Nat) : R s { s with depth }
  begins (s : Session) : R s { s with navigation := { s.navigation with transitioning := true } }
  navigate (d : Direction) (s : Session) : R s (navigate d s).2

section

variable {R : Session → Session → Prop} {s : Session}

section

variable (hR : Composes R)
  (hbegins : ∀ s : Session, R s { s with navigation := { s.navigation with transitioning := true } })
include hR hbegins

theorem Composes.changeScene (index : Int) (recorded : Bool) (s : Session) :
    R s (changeScene index recorded s).2 := by
  rw [changeScene_apply]
  split
  · exact hR.refl s
  · split
    · exact hR.refl s
    · exact hbegins s

/-- What comes of a change of scene as part of a command. -/
theorem Composes.nextOfChange (index : Int) (recorded : Bool) (s : Session) :
    Keeps R (fun _ => True)
      (do return nextOfChange (← Session.changeScene index recorded)) s :=
  hR.bind (keeps_of_related (hR.changeScene hbegins index recorded s)) fun _ s' _ =>
    hR.pure trivial s'

/-- A way is taken in parts: the place in the history moves, the presentation is called on, and a
change of scene begins. -/
theorem Composes.navigate
    (hplace : ∀ (s : Session) (place : Option Nat),
      R s { s with navigation := { s.navigation with place } })
    (htold : ∀ (s : Session) (d : Direction), R s (s.told (.call (.navigate d))))
    (d : Direction) (s : Session) : R s (navigate d s).2 := by
  have hback (s : Session) : R s (navigating Navigation.back s).2 := by
    obtain ⟨place, hmoved⟩ := back_eq s.navigation
    rw [navigating_apply, hmoved]
    exact hplace s place
  have hdestination (s : Session) : Keeps R (fun _ => True) (destination d) s := by
    refine Keeps.get_bind ?_
    split
    · exact hR.pure trivial s
    · split
      · exact hR.bind (keeps_of_related (hback s)) fun _ s' _ => hR.pure trivial s'
      · exact hR.pure trivial s
  suffices h : Keeps R (fun _ => True) (Session.navigate d) s from h.related
  refine Keeps.get_bind ?_
  split
  · exact hR.pure trivial s
  · refine hR.bind (hdestination s) fun found s' _ => ?_
    split
    · exact hR.pure trivial s'
    · rename_i target recorded
      have hcall : R s' (call (.navigate d) s').2 := by
        rw [call, tell_apply]
        exact htold s' d
      refine hR.bind (keeps_of_related hcall) fun _ s' _ => ?_
      exact hR.nextOfChange hbegins target recorded s'

end

variable (hR : Handles R)
include hR

theorem Handles.nest (text : String) (s : Session) : R s (nest text s).2 := by
  rw [nest_apply]
  split
  · exact hR.refl s
  · split
    · exact hR.refl s
    · exact hR.depth s _

theorem Handles.perform {verb : Verb} (hquit : verb ≠ .quit) (i : Instruction) (s : Session) :
    R s (perform verb i s).2 := by
  by_cases hplain : verb.IsPlain
  · exact (hR.toAllows.perform hplain hquit i s).related
  · cases verb with
    | navigate d => exact hR.navigate d s
    | playCommand => exact hR.nest i.args s
    | goToScene =>
        suffices h : Keeps R (fun _ => True) (Session.perform .goToScene i) s from h.related
        refine Keeps.get_bind (hR.given_bind fun index => ?_)
        exact hR.nextOfChange hR.begins index true s
    | condition =>
        suffices h : Keeps R (fun _ => True) (Session.perform .condition i) s from h.related
        refine hR.given_bind fun condition => Keeps.get_bind ?_
        split
        · exact hR.pure trivial s
        · split
          · exact hR.pure trivial s
          · exact keeps_of_related (hR.nest _ s)
    | _ => exact (hplain trivial).elim

theorem Handles.performAny (hquit : ∀ s : Session, R s { s with quit := true }) (verb : Verb)
    (i : Instruction) (s : Session) : R s (Session.perform verb i s).2 := by
  by_cases hends : verb = .quit
  · subst hends
    have hadmits : Admits R := ⟨hR.toAllows, hquit⟩
    have hplain : Verb.quit.IsPlain := trivial
    exact (hadmits.perform hplain i s).related
  · exact hR.perform hends i s

end

/-! ## Lists -/

/-- What holds of each step holds of a list up to its end, or to a pause. -/
theorem Composes.run {R : Session → Session → Prop} (hR : Composes R)
    (hstep : ∀ (s : Session) (flow : Flow) (frame : Frame) (frames : List Frame),
      R s (s.step flow frame frames).1) (s : Session) (flow : Flow) (frames : List Frame) :
    R s (s.run flow frames).1 := by
  unfold Session.run
  fun_induction runFrames (s.stackSteps frames) s flow frames with
  | case1 | case2 | case3 => exact hR.refl _
  | case4 fuel s flow frame frames s' duration frames' hstopped =>
      have h := hstep s flow frame frames
      rwa [hstopped] at h
  | case5 fuel s flow frame frames s' flow' frames' hgoing ih =>
      have h := hstep s flow frame frames
      rw [hgoing] at h
      exact hR.trans h ih

/-- A relation between sessions that follows each step of a list. No step tells of a tick, and one
that tells of a change of a variable makes that change. -/
structure Follows (R : Session → Session → Prop) : Prop extends Composes R where
  told (s : Session) {entry : LogEntry} :
    entry.isTick = false → entry.change? = none → R s (s.told entry)
  write (name : String) (value : Int) (s : Session) :
    R s (writeVariable name (·.set name value) s).2
  font (s : Session) (font : Option String) : R s { s with font }
  quit (s : Session) : R s { s with quit := true }
  navigation (s : Session) (navigation : Navigation) : R s { s with navigation }
  depth (s : Session) (depth : Nat) : R s { s with depth }
  startTimer (id : String) (interval : Int) (commands : List Instruction) (s : Session) :
    R s (startTimer id interval commands s).2
  stopTimer (id : String) (s : Session) : R s (stopTimer id s).2

section

variable {R : Session → Session → Prop} (hR : Follows R) {s : Session}
include hR

theorem Follows.admits : Admits R where
  toComposes := hR.toComposes
  told s _ h hchange := hR.told s h.isTick_eq_false hchange
  write := hR.write
  font := hR.font
  quit := hR.quit
  disabled s _ := hR.navigation s _
  startTimer := hR.startTimer
  stopTimer := hR.stopTimer

theorem Follows.changeScene (index : Int) (recorded : Bool) (s : Session) :
    R s (changeScene index recorded s).2 :=
  hR.toComposes.changeScene (fun s => hR.navigation s _) index recorded s

theorem Follows.navigate (d : Direction) (s : Session) : R s (navigate d s).2 :=
  hR.toComposes.navigate (fun s => hR.navigation s _) (fun s _ => hR.navigation s _)
    (fun s _ => hR.told s rfl rfl) d s

theorem Follows.handles : Handles R where
  toAllows := hR.admits.toAllows
  depth := hR.depth
  begins s := hR.navigation s _
  navigate := hR.navigate

theorem Follows.perform (verb : Verb) (i : Instruction) (s : Session) :
    R s (perform verb i s).2 := hR.handles.performAny hR.quit verb i s

theorem Follows.steps {flow : Flow} {frame : Frame} {frames : List Frame}
    {out : Session × Progress} (h : Steps s flow frame frames out) : R s out.1 := by
  have hshown (target : Nat) (recorded : Bool) :
      R s ((s.shown target recorded).told (.call (.goToScene target))) :=
    hR.trans (hR.navigation s _) (hR.told _ rfl rfl)
  cases h with
  | idle | unknown | leaveNone => exact hR.refl s
  | refused | report | leave => exact hR.told s rfl rfl
  | @command i rest frames verb outcome s' hquit hverb hanswer hperform =>
      have hcommand := hR.perform verb i (s.told (executed i))
      rw [hperform] at hcommand
      exact hR.trans (hR.told s rfl rfl) hcommand
  | nested => exact hR.depth s _
  | transition => exact hR.navigation s _
  | hidden => exact hshown _ _
  | unannounced | arrive => exact hR.trans (hshown _ _) (hR.told _ rfl rfl)

theorem Follows.step (s : Session) (flow : Flow) (frame : Frame) (frames : List Frame) :
    R s (s.step flow frame frames).1 := hR.steps (Session.steps s flow frame frames)

/-- What follows each step follows a list up to its end, or to a pause. -/
theorem Follows.run (s : Session) (flow : Flow) (frames : List Frame) :
    R s (s.run flow frames).1 := hR.toComposes.run hR.step s flow frames

end

end Session

/-! ## Moves -/

namespace Machine

/-- A relation between sessions that spans each move of a machine, as long as users act only in
certain ways. -/
structure Spans (acts : Action → Prop) (R : Session → Session → Prop) : Prop
    extends Session.Composes R where
  run (s : Session) (frames : List Frame) : R s (s.run .going frames).1
  changeScene (index : Int) (recorded : Bool) (s : Session) :
    R s (Session.changeScene index recorded s).2
  tick (id : String) (count : Int) (s : Session) : R s (s.told (.event (.timerTick id count)))
  /-- The turns of the present instant are free, and so is the mark that something is being run. -/
  marks (s : Session) (turns : List Turn) (executing : Bool) : R s { s with turns, executing }
  /-- A timer's waits and ticks neither pause it nor resume it. -/
  clock (s : Session) (serial : Nat) {change : Timer → Timer} :
    (∀ x, (change x).paused = x.paused ∧ (change x).phase ≠ .woken) →
      R s { s with timers := s.timers.update serial change }
  plan (s : Session) {a : Action} : acts a → R s (plan a s).2

variable {acts : Action → Prop} {R : Session → Session → Prop} {s : Session} {m : Machine}

section

variable (hR : Spans acts R)
include hR

theorem Spans.beginWait (h : R s m.session) (serial : Nat) :
    R s (m.beginWait serial).session := by
  refine hR.trans h (hR.clock m.session serial fun x => ⟨rfl, ?_⟩)
  dsimp only
  split <;> nofun

theorem Spans.finish (h : R s m.session) (owner : Owner) (result : Except Fault Reply) :
    R s (m.finish owner result).session := by
  have hfree (turns : List Turn) : R s { m.session with turns, executing := false } :=
    hR.trans h (hR.marks m.session turns false)
  unfold Machine.finish
  cases owner with
  | user job =>
      dsimp only
      split <;> exact hfree _
  | timer serial =>
      refine hR.beginWait ?_ serial
      dsimp only
      split <;> exact hfree _

theorem Spans.runFrames (h : R s m.session) (owner : Owner) (reply : Reply) (frames : List Frame) :
    R s (m.runFrames owner reply frames).session := by
  have hrun := hR.trans h (hR.run m.session frames)
  unfold Machine.runFrames
  split <;> rename_i hhalt <;> rw [hhalt] at hrun
  · exact hR.finish hrun owner _
  · exact hR.finish hrun owner _
  · split
    · exact hrun
    · exact hR.trans hrun (hR.marks _ _ _)

theorem Spans.executing (h : R s m.session) : R s m.executing.session :=
  hR.trans h (hR.marks m.session m.session.turns true)

theorem Spans.start (h : R s m.session) (r : Request) : R s (m.start r).session := by
  have hbegun := hR.executing h
  unfold Machine.start
  split
  · exact hR.runFrames hbegun _ _ _
  · rename_i index recorded _
    have hchange := hR.trans hbegun (hR.changeScene index recorded m.executing.session)
    dsimp only
    split <;> rename_i houtcome <;> rw [houtcome] at hchange
    · exact hR.finish hchange _ _
    · exact hR.finish hchange _ _
    · exact hR.runFrames hchange _ _ _
  · rename_i timer _
    split
    · exact hR.finish h _ _
    · have htold := hR.trans hbegun (hR.tick timer.id timer.tickCount m.executing.session)
      dsimp only
      rw [Session.emit, Session.tell_apply]
      cases m.executing.session.answer _ with
      | error e => exact hR.finish htold _ _
      | ok _ => exact hR.runFrames htold _ _ _

theorem Spans.request (h : R s m.session) (r : Request) : R s (m.request r).session := by
  unfold Machine.request
  split
  · exact hR.start h r
  · exact h

theorem Spans.goOn (h : R s m.session) : R s m.goOn.session := by
  unfold Machine.goOn
  split
  · exact h
  · exact hR.runFrames h _ _ _

theorem Spans.answer {step : Machine × Option Request} (h : R s step.1.session) :
    R s (answer step).session := by
  unfold Machine.answer
  split
  · exact h
  · exact hR.request h _

theorem Spans.ticked (h : R s m.session) (serial : Nat) : R s (m.tick serial).session := by
  have hcount : R s (m.tickCall serial).1.session :=
    hR.trans h (hR.clock m.session serial fun _ => ⟨rfl, nofun⟩)
  rw [tick_eq_answer]
  exact hR.answer hcount

theorem Spans.enter (h : R s m.session) {a : Action} (ha : acts a) :
    R s (m.enter a).1.session := by
  have hplan := hR.trans h (hR.plan m.session ha)
  unfold Machine.enter
  dsimp only
  split <;> rename_i hact <;> rw [hact] at hplan <;> exact hplan

theorem Spans.take (h : R s m.session) (t : Turn) : R s (m.take t).session := by
  cases t with
  | beginTimer serial =>
      simp only [Machine.take]
      split
      · exact hR.beginWait h serial
      · exact h
  | tickTimer serial =>
      simp only [Machine.take]
      split
      · exact hR.ticked h serial
      · exact h
  | grant =>
      simp only [Machine.take]
      split
      · exact h
      · rename_i rest _
        exact hR.start (m := { m with queue := rest }) h _
  | resume => exact hR.goOn h

theorem Spans.wake (h : R s m.session) (d : Due) : R s (m.wake d).session := by
  unfold Machine.wake
  dsimp only
  split
  · exact hR.goOn h
  · rename_i serial _
    split
    · exact hR.trans h (hR.clock m.session serial fun _ => ⟨rfl, nofun⟩)
    · exact hR.ticked (m := { m with now := max m.now d.time }) h serial

theorem Spans.move (h : R s m.session) {move : Move} (hmove : ∀ a, move = .act a → acts a) :
    R s (m.move move).session := by
  cases move with
  | act a => exact hR.answer (hR.enter h (hmove a rfl))
  | ask r => exact hR.request h r
  | turn t =>
      have hdrop : R s (m.dropTurn t).session :=
        hR.trans h (hR.marks m.session _ m.session.executing)
      simp only [Machine.move]
      split
      · exact hR.take hdrop t
      · exact h
  | wake d => exact hR.wake h d
  | pass time => exact h

/-- What spans each move spans any number of them. -/
theorem Spans.after (h : R s m.session) {moves : List Move}
    (hmoves : ∀ a, Move.act a ∈ moves → acts a) : R s (m.after moves).session := by
  induction moves generalizing m with
  | nil => exact h
  | cons move moves ih =>
      have hmove : R s (m.move move).session :=
        hR.move h fun a ha => hmoves a (ha ▸ List.mem_cons_self)
      exact ih hmove fun a ha => hmoves a (List.mem_cons_of_mem _ ha)

end

end Machine

end PointAndClick
