import PointAndClick.Proofs.Navigation.Saving
import PointAndClick.Proofs.Play.Course
import PointAndClick.Proofs.Play.PauseFlags
import PointAndClick.Proofs.Play.Quitting
import PointAndClick.Proofs.Play.Spans
import PointAndClick.Proofs.Play.Ways

/-!
# After a saved state is restored

Restoring a saved state takes the lock from nobody: a list or a change of scene that is paused, or
waits for the lock, goes on afterwards. What it does then it does from where the saved state led.
Of itself nothing takes the session from there (`Session.Roams`): the scene shown, the history and
the place in it stay as they were saved until the presentation is called on to show a scene, or to
go back (`Machine.restored_position`).

A list in flight that goes to a scene does take it from there
(`Machine.not_forall_restored_position`).
-/

set_option autoImplicit false

namespace PointAndClick

/-- The presentation is called on to show a scene, or to go back. -/
def LogEntry.isTravel : LogEntry → Bool
  | .call (.goToScene _) | .call (.navigate .backward) => true
  | _ => false

namespace Navigation

variable {n n' : Navigation}

/-- The scene shown, the history and the place in it are the same. -/
structure Agrees (n n' : Navigation) : Prop where
  current : n'.current = n.current
  history : n'.history = n.history
  place : n'.place = n.place

theorem Agrees.refl (n : Navigation) : Agrees n n := ⟨rfl, rfl, rfl⟩

theorem Agrees.trans {n₁ n₂ n₃ : Navigation} (h : Agrees n₁ n₂) (h' : Agrees n₂ n₃) :
    Agrees n₁ n₃ :=
  ⟨h'.current.trans h.current, h'.history.trans h.history, h'.place.trans h.place⟩

/-- A sound navigation that has room for a history. -/
structure Steady (n : Navigation) : Prop extends Sound n where
  limit : 0 < n.maxHistory

end Navigation

namespace Session

variable {s s' : Session}

/-! ## Lists -/

/-- The scenes and the presentation stay, and so does the room for a history. -/
structure Shares (s s' : Session) : Prop where
  presentation : s'.presentation = s.presentation
  scenes : s'.navigation.scenes = s.navigation.scenes
  maxHistory : s'.navigation.maxHistory = s.navigation.maxHistory

theorem composes_shares : Composes Shares where
  refl _ := ⟨rfl, rfl, rfl⟩
  trans h h' := ⟨h'.presentation.trans h.presentation, h'.scenes.trans h.scenes,
    h'.maxHistory.trans h.maxHistory⟩

/-- From where a steady navigation is, nothing goes without a call to the presentation. -/
structure Roams (s s' : Session) : Prop extends Shares s s' where
  steady : s.navigation.Steady → s'.navigation.Steady
  log : ∃ entries, s'.log.toList = s.log.toList ++ entries ∧
    (s.navigation.Steady → s.presentation.records = true →
      (∀ e ∈ entries, e.isTravel = false) → s.navigation.Agrees s'.navigation)

/-- Where the scene shown, the history and the place stay, anything may be told. -/
theorem roams_of_agrees (hpresentation : s'.presentation = s.presentation)
    (hscenes : s'.navigation.scenes = s.navigation.scenes)
    (hmax : s'.navigation.maxHistory = s.navigation.maxHistory)
    (hagrees : s.navigation.Agrees s'.navigation)
    (hlog : ∃ entries, s'.log.toList = s.log.toList ++ entries) : Roams s s' := by
  obtain ⟨entries, hlog⟩ := hlog
  refine ⟨⟨hpresentation, hscenes, hmax⟩, fun h => ⟨?_, ?_⟩, entries, hlog, fun _ _ _ => hagrees⟩
  · exact h.of_eq hscenes hmax hagrees.history hagrees.place hagrees.current
  · rw [hmax]
    exact h.limit

theorem roams_of_eq (hpresentation : s'.presentation = s.presentation)
    (hnavigation : ∃ disabled transitioning,
      s'.navigation = { s.navigation with disabled, transitioning }) (hlog : s'.log = s.log) :
    Roams s s' := by
  obtain ⟨disabled, transitioning, hnavigation⟩ := hnavigation
  refine roams_of_agrees hpresentation ?_ ?_ ?_ ⟨[], by rw [hlog, List.append_nil]⟩ <;>
    rw [hnavigation]
  exact ⟨rfl, rfl, rfl⟩

theorem roams_told (s : Session) (entry : LogEntry) : Roams s (s.told entry) := by
  refine roams_of_agrees (presentation_told entry) ?_ ?_ ?_ ⟨_, toList_log_told s entry⟩ <;>
    rw [navigation_told]
  exact Navigation.Agrees.refl _

/-- A call to show a scene, or to go back, is made where the navigation went. -/
theorem roams_travel {entry : LogEntry} (hentry : entry.isTravel = true) {moved : Session}
    (hpresentation : moved.presentation = s.presentation) (hlog : moved.log = s.log)
    (hscenes : moved.navigation.scenes = s.navigation.scenes)
    (hmax : moved.navigation.maxHistory = s.navigation.maxHistory)
    (hsound : s.navigation.Steady → moved.navigation.Sound) : Roams s (moved.told entry) := by
  refine ⟨⟨(presentation_told entry).trans hpresentation, ?_, ?_⟩, fun h => ⟨?_, ?_⟩, _,
    (toList_log_told moved entry).trans (by rw [hlog]), fun _ hrecords hentries => ?_⟩
  · rw [navigation_told]
    exact hscenes
  · rw [navigation_told]
    exact hmax
  · rw [navigation_told]
    exact hsound h
  · rw [navigation_told, hmax]
    exact h.limit
  · rw [hpresentation, if_pos hrecords] at hentries
    have hnone := hentries entry List.mem_cons_self
    rw [hentry] at hnone
    nomatch hnone

theorem composes_roams : Composes Roams where
  refl _ := roams_of_eq rfl ⟨_, _, rfl⟩ rfl
  trans {s₁ _ _} h h' := by
    obtain ⟨entries, hlog, hagrees⟩ := h.log
    obtain ⟨entries', hlog', hagrees'⟩ := h'.log
    refine ⟨composes_shares.trans h.toShares h'.toShares, fun hs => h'.steady (h.steady hs),
      entries ++ entries', by rw [hlog', hlog, List.append_assoc], fun hs hrecords hentries => ?_⟩
    have hfirst := hagrees hs hrecords fun e he => hentries e (List.mem_append_left _ he)
    refine hfirst.trans (hagrees' (h.steady hs) (h.presentation ▸ hrecords) fun e he => ?_)
    exact hentries e (List.mem_append_right _ he)

theorem covers_roams : Covers Roams where
  toComposes := composes_roams
  told s entry _ := roams_told s entry
  values _ _ := roams_of_eq rfl ⟨_, _, rfl⟩ rfl
  font _ _ := roams_of_eq rfl ⟨_, _, rfl⟩ rfl
  quit _ := roams_of_eq rfl ⟨_, _, rfl⟩ rfl
  disabled _ _ := roams_of_eq rfl ⟨_, _, rfl⟩ rfl
  startTimer _ _ _ _ := roams_of_eq rfl ⟨_, _, rfl⟩ rfl
  stopTimer _ _ := roams_of_eq rfl ⟨_, _, rfl⟩ rfl

/-- A change of scene that a command begins has not gone anywhere yet. -/
theorem roams_nextOfChange (index : Int) (recorded : Bool) (s : Session) :
    Keeps Roams (fun _ => True)
      (do return nextOfChange (← changeScene index recorded) : Act Next) s :=
  composes_roams.nextOfChange (fun _ => roams_of_eq rfl ⟨_, _, rfl⟩ rfl) index recorded s

/-- A way is taken, once the place in the history moved. -/
theorem roams_take {d : Direction} {moved : Session} {index : Int} {recorded : Bool}
    (hcall : Roams s (moved.told (.call (.navigate d)))) :
    Roams s ((do
      call (.navigate d)
      return nextOfChange (← changeScene index recorded) : Act Next) moved).2 := by
  rw [bind_apply, call, tell_apply]
  cases moved.answer (.call (.navigate d)) with
  | error e => exact hcall
  | ok _ =>
      exact composes_roams.trans hcall (roams_nextOfChange index recorded _).related

/-- No way is taken without a call, but for one back in a history that is wrong. -/
theorem roams_navigate (d : Direction) (s : Session) : Roams s (navigate d s).2 := by
  unfold navigate
  rw [get_bind_apply]
  by_cases hchanging : s.navigation.transitioning = true
  · rw [if_pos hchanging]
    exact composes_roams.refl s
  · rw [if_neg hchanging, bind_apply]
    unfold destination
    rw [get_bind_apply]
    cases s.navigation.linkTarget? d with
    | some target => exact roams_take (roams_told s _)
    | none =>
        by_cases hd : d = .backward
        · subst hd
          dsimp only
          rw [if_pos rfl, bind_apply, navigating_apply]
          rcases back_cases s.navigation with hback | ⟨p, hplace, hback⟩
          · rw [hback]
            exact composes_roams.refl s
          · have hsound (h : s.navigation.Steady) :
                Navigation.Sound { s.navigation with place := some p } := by
              have hmoved := h.toSound.back
              rwa [hback] at hmoved
            rw [hback]
            cases hentry : s.navigation.entryAt p with
            | error e =>
                -- no place in the history of a steady navigation is without an entry
                refine ⟨⟨rfl, rfl, rfl⟩, fun h => ⟨hsound h, h.limit⟩, [],
                  (List.append_nil _).symm, fun h _ _ => ?_⟩
                obtain ⟨found, hfound, -⟩ := h.toSound.back_eq_ok
                rw [hback, hentry] at hfound
                nomatch hfound
            | ok found =>
                cases found with
                | none =>
                    unfold Navigation.entryAt at hentry
                    split at hentry <;> nomatch hentry
                | some index =>
                    exact roams_take (roams_travel rfl rfl rfl rfl rfl hsound)
        · dsimp only
          rw [if_neg hd]
          exact composes_roams.refl s

theorem handles_roams : Handles Roams where
  toAllows := covers_roams.admits.toAllows
  depth _ _ := roams_of_eq rfl ⟨_, _, rfl⟩ rfl
  begins _ := roams_of_eq rfl ⟨_, _, rfl⟩ rfl
  navigate := roams_navigate

/-- A scene is shown where the presentation is called on to show it. -/
theorem roams_shown {target : Nat} {scene : Scene}
    (hscene : s.navigation.scenes[target]? = some scene) (recorded : Bool) :
    Roams s ((s.shown target recorded).told (.call (.goToScene target))) := by
  obtain ⟨history, place, henter⟩ := s.navigation.enter_eq target recorded
  obtain ⟨htarget, -⟩ := List.getElem?_eq_some_iff.mp hscene
  refine roams_travel rfl rfl rfl ?_ ?_ fun h => h.toSound.enter h.limit htarget recorded
  · show (s.navigation.enter target recorded).scenes = _
    rw [henter]
  · show (s.navigation.enter target recorded).maxHistory = _
    rw [henter]

theorem roams_steps {flow : Flow} {frame : Frame} {frames : List Frame} {out : Session × Progress}
    (h : Steps s flow frame frames out) : Roams s out.1 := by
  cases h with
  | idle | unknown | leaveNone => exact composes_roams.refl s
  | refused | report | leave => exact roams_told s _
  | @command i rest frames verb outcome s' hquit hverb hanswer hperform =>
      have hcommand := handles_roams.performAny covers_roams.quit verb i (s.told (executed i))
      rw [hperform] at hcommand
      exact composes_roams.trans (roams_told s _) hcommand
  | nested | transition => exact roams_of_eq rfl ⟨_, _, rfl⟩ rfl
  | hidden hscene => exact roams_shown hscene _
  | unannounced hscene | arrive hscene =>
      exact composes_roams.trans (roams_shown hscene _) (roams_told _ _)

theorem roams_run (s : Session) (frames : List Frame) : Roams s (s.run .going frames).1 :=
  composes_roams.run (fun s flow frame frames => roams_steps (steps s flow frame frames)) s .going
    frames

/-! ## What a user does at once -/

/-- What restoring a saved state does to the navigation: what the navigation itself makes of it, or
nothing if it fails before. -/
theorem navigation_restore (state : Json) (s : Session) :
    (restore state s).2.navigation = (s.navigation.restore state).1 ∨
      (restore state s).2.navigation = s.navigation ∧ ∃ e, (restore state s).1 = .error e := by
  rw [restore_apply]
  split
  · rename_i e _
    exact Or.inr ⟨rfl, e, rfl⟩
  · split
    · rename_i e _
      exact Or.inr ⟨rfl, e, rfl⟩
    · refine Or.inl ?_
      split
      · rename_i hrestored
        rw [hrestored]
      · rename_i hrestored
        rw [hrestored]
        split <;> rfl

/-- What a user does to the navigation at once. -/
inductive Plans (n : Navigation) : Machine.Action → Navigation → Prop
  | still {a : Machine.Action} : Plans n a n
  | back : Plans n .back n.back.1
  | forward : Plans n .forward n.forward.1
  | restore (state : Json) : Plans n (.restore state) (n.restore state).1

theorem navigation_planHistory (go : Navigation → Navigation × Except Fault (Option Nat))
    (s : Session) : (Machine.planHistory go s).2.navigation = (go s.navigation).1 := by
  unfold Machine.planHistory
  rw [bind_apply, navigating_apply]
  rcases (go s.navigation).2 with _ | _ | _ <;> rfl

theorem plans (a : Machine.Action) (s : Session) :
    Plans s.navigation a (Machine.plan a s).2.navigation := by
  have hstill (ha : a.IsStill) : Plans s.navigation a (Machine.plan a s).2.navigation := by
    have hcalmly : Calmly s (Machine.plan a s).2 := (attends_calmly.plan ha s).related
    rw [hcalmly.navigation]
    exact .still
  cases a with
  | back =>
      rw [Machine.plan, navigation_planHistory]
      exact .back
  | forward =>
      rw [Machine.plan, navigation_planHistory]
      exact .forward
  | restore state =>
      rw [Machine.plan, snd_reply]
      rcases navigation_restore state s with hrestored | ⟨hsame, -⟩
      · rw [hrestored]
        exact .restore state
      · rw [hsame]
        exact .still
  | _ => exact hstill trivial

theorem Plans.bounds {n n' : Navigation} {a : Machine.Action} (h : Plans n a n') :
    n'.scenes = n.scenes ∧ n'.maxHistory = n.maxHistory := by
  cases h with
  | still => exact ⟨rfl, rfl⟩
  | back =>
      obtain ⟨place, hplace⟩ := back_eq n
      rw [hplace]
      exact ⟨rfl, rfl⟩
  | forward =>
      obtain ⟨place, hplace⟩ := forward_eq n
      rw [hplace]
      exact ⟨rfl, rfl⟩
  | restore state =>
      obtain ⟨_, _, _, _, _, hrestored, -⟩ := n.restore_eq state
      rw [hrestored]
      exact ⟨rfl, rfl⟩

theorem shares_plan (a : Machine.Action) (s : Session) : Shares s (Machine.plan a s).2 :=
  ⟨(digresses_plan a s).presentation, (plans a s).bounds.1, (plans a s).bounds.2⟩

theorem Plans.steady {n n' : Navigation} {a : Machine.Action} (h : Plans n a n')
    (ha : ∀ state, a = .restore state → Navigation.ReadsPlace state) (hn : n.Steady) :
    n'.Steady := by
  refine ⟨?_, h.bounds.2 ▸ hn.limit⟩
  cases h with
  | still => exact hn.toSound
  | back => exact hn.toSound.back
  | forward => exact hn.toSound.forward
  | restore state => exact hn.toSound.restore hn.limit (ha state rfl)

theorem Calmly.roams (h : Calmly s s') : Roams s s' := by
  obtain ⟨entries, hlog, -⟩ := h.log
  refine roams_of_agrees h.presentation ?_ ?_ ?_ ⟨entries, hlog⟩ <;> rw [h.navigation]
  exact Navigation.Agrees.refl _

/-! ## Moves -/

theorem roams_changeScene (index : Int) (recorded : Bool) (s : Session) :
    Roams s (changeScene index recorded s).2 :=
  composes_roams.changeScene (fun _ => roams_of_eq rfl ⟨_, _, rfl⟩ rfl) index recorded s

/-- Whatever happens, the scenes, the presentation and the room for a history stay. -/
theorem spans_shares : Machine.Spans (fun _ => True) Shares where
  toComposes := composes_shares
  run s frames := (roams_run s frames).toShares
  changeScene index recorded s := (roams_changeScene index recorded s).toShares
  tick _ _ s := (roams_told s _).toShares
  marks _ _ _ := ⟨rfl, rfl, rfl⟩
  clock _ _ _ _ := ⟨rfl, rfl, rfl⟩
  plan s _ _ := shares_plan _ s

/-- As long as no state is restored whose place cannot be read, a navigation stays steady. -/
theorem spans_steady :
    Machine.Spans (fun a => ∀ state, a = .restore state → Navigation.ReadsPlace state)
      fun s s' => s.navigation.Steady → s'.navigation.Steady where
  refl _ := id
  trans h h' := h' ∘ h
  run s frames := (roams_run s frames).steady
  changeScene index recorded s := (roams_changeScene index recorded s).steady
  tick _ _ s := (roams_told s _).steady
  marks _ _ _ := id
  clock _ _ _ _ := id
  plan s _ ha := (plans _ s).steady ha

/-- Unless a user goes elsewhere, nothing goes anywhere without a call to the presentation. -/
theorem spans_roams : Machine.Spans Machine.Action.IsStill Roams where
  toComposes := composes_roams
  run := roams_run
  changeScene := roams_changeScene
  tick _ _ s := roams_told s _
  marks _ _ _ := roams_of_eq rfl ⟨_, _, rfl⟩ rfl
  clock _ _ _ _ := roams_of_eq rfl ⟨_, _, rfl⟩ rfl
  plan s _ ha := Calmly.roams (attends_calmly.plan ha s).related

theorem steady_ofProject (p : Project) (presentation : Presentation) (minInterval : Int) :
    (ofProject p presentation minInterval).navigation.Steady :=
  ⟨Navigation.sound_fresh p.scenes 100, Nat.succ_pos 99⟩

end Session

namespace Machine

open Session

/-- A session keeps the presentation, the scenes and the room for a history of its project. -/
theorem shares_after (p : Project) (presentation : Presentation) (minInterval : Int)
    (moves : List Move) :
    Shares (Session.ofProject p presentation minInterval)
      ((ofSession (Session.ofProject p presentation minInterval)).after moves).session :=
  spans_shares.after (m := ofSession (Session.ofProject p presentation minInterval))
    (composes_shares.refl _) fun _ _ => trivial

/-- What is restored leads to where the session was that was saved. -/
theorem agrees_restore {s saved : Session} (hsteady : saved.navigation.Steady)
    (hscenes : s.navigation.scenes = saved.navigation.scenes)
    (hmax : s.navigation.maxHistory = saved.navigation.maxHistory)
    (hok : (Session.restore saved.save s).1 = .ok ()) :
    saved.navigation.Agrees (Session.restore saved.save s).2.navigation := by
  have hfields : Navigation.Locates
      (("variables", saved.values.save) :: saved.navigation.saveFields ++
        [("active_timers", saved.timers.save)]) saved.navigation := ⟨rfl, rfl, rfl⟩
  obtain ⟨disabled, transitioning, hrestored⟩ :=
    hsteady.toSound.restore_eq_of_locates hfields hscenes hmax
  rcases navigation_restore saved.save s with hnavigation | ⟨-, e, hfails⟩
  · have hwhere : (Session.restore saved.save s).2.navigation =
        { saved.navigation with disabled, transitioning } := hnavigation.trans hrestored
    rw [hwhere]
    exact ⟨rfl, rfl, rfl⟩
  · rw [hok] at hfails
    nomatch hfails

/-- Restoring a saved state takes the lock from nobody. -/
theorem work_restore (m : Machine) (state : Json) :
    (m.move (.act (.restore state))).running = m.running ∧
      (m.move (.act (.restore state))).queue = m.queue := by
  unfold move enter
  dsimp only
  rw [plan, bind_apply]
  rcases Session.restore state m.session with ⟨_ | _, s⟩ <;> exact ⟨rfl, rfl⟩

/-- Where a restored session stays. A machine restores what was saved of a machine of the same
project, which never restored a state with a place that cannot be read. What was paused or waited
for the lock goes on. But the scene shown, the history and the place in it stay as they were saved,
whatever users, timers and lists do, as long as no user goes to another place in the history or
restores something else, and up to the first call to the presentation to show a scene, or to go
back. -/
theorem restored_position (p : Project) (presentation presentation' : Presentation)
    (hrecords : presentation.records = true) (minInterval minInterval' : Int)
    (moves earlier later : List Move)
    (hearlier : ∀ state, Move.act (.restore state) ∈ earlier → Navigation.ReadsPlace state)
    (hlater : ∀ move ∈ later, move.IsStill) :
    let m := (ofSession (Session.ofProject p presentation minInterval)).after moves
    let saved := ((ofSession (Session.ofProject p presentation' minInterval')).after earlier).session
    let restored := m.move (.act (.restore saved.save))
    let s := (restored.after later).session
    (Session.restore saved.save m.session).1 = .ok () →
      restored.running = m.running ∧ restored.queue = m.queue ∧
        ∃ told, s.log.toList = restored.session.log.toList ++ told ∧
          ((∀ e ∈ told, e.isTravel = false) →
            s.navigation.current = saved.navigation.current ∧
              s.navigation.history = saved.navigation.history ∧
              s.navigation.place = saved.navigation.place) := by
  intro m saved restored s hok
  have hm := shares_after p presentation minInterval moves
  have hsaved := shares_after p presentation' minInterval' earlier
  have hsteady : saved.navigation.Steady :=
    spans_steady.after (s := Session.ofProject p presentation' minInterval') id
      (fun a ha state h => hearlier state (h ▸ ha)) (steady_ofProject p presentation' minInterval')
  have hsession : restored.session = (Session.restore saved.save m.session).2 :=
    session_act_of_done rfl
  have hagrees : saved.navigation.Agrees restored.session.navigation := by
    rw [hsession]
    exact agrees_restore hsteady (hm.scenes.trans hsaved.scenes.symm)
      (hm.maxHistory.trans hsaved.maxHistory.symm) hok
  have hshares : Shares (Session.ofProject p presentation minInterval) restored.session :=
    spans_shares.move hm fun _ _ => trivial
  have hrestored : restored.session.navigation.Steady := by
    refine ⟨hsteady.toSound.of_eq ?_ ?_ hagrees.history hagrees.place hagrees.current, ?_⟩
    · exact hshares.scenes.trans hsaved.scenes.symm
    · exact hshares.maxHistory.trans hsaved.maxHistory.symm
    · rw [hshares.maxHistory]
      exact (steady_ofProject p presentation minInterval).limit
  have hroams : Roams restored.session s :=
    spans_roams.after (composes_roams.refl _) fun a ha => hlater _ ha
  obtain ⟨hrunning, hqueue⟩ := work_restore m saved.save
  obtain ⟨told, hlog, hstays⟩ := hroams.log
  refine ⟨hrunning, hqueue, told, hlog, fun htold => ?_⟩
  have hend := hagrees.trans (hstays hrestored (hshares.presentation ▸ hrecords) htold)
  exact ⟨hend.current, hend.history, hend.place⟩

/-- Two scenes without anything in them. -/
def twoScenes : Project := { scenes := [{ index := 0 }, { index := 1 }] }

/-- The first scene is shown. -/
def shownFirst : List Move := [.act (.goToScene (.index 0))]

/-- Then the second scene is shown, and there a list waits before it goes on. -/
def waiting (next : Instruction) : List Move :=
  shownFirst ++ [.act (.goToScene (.index 1)), .act (.execute [⟨"PAUSE", "10"⟩, next])]

/-- What waits goes on. -/
def resumption : List Move := [.wake ⟨10, 0, .running⟩]

/-- What was saved in the first scene is restored while a list waits, which then plays a sound. -/
theorem restored_position_sound :
    let fresh := ofSession (Session.ofProject twoScenes { pace := .timed } 16)
    let m := fresh.after (waiting ⟨"PLAYWAV", "bell.wav"⟩)
    let saved := (fresh.after shownFirst).session
    let restored := m.move (.act (.restore saved.save))
    let s := (restored.after resumption).session
    (∀ state, Move.act (.restore state) ∈ shownFirst → Navigation.ReadsPlace state) ∧
      (∀ move ∈ resumption, move.IsStill) ∧ (Session.restore saved.save m.session).1 = .ok () ∧
      restored.running.isSome = true ∧
      s.log.toList.getLast? = some (.event (.mediaStart .wave "bell.wav")) ∧
      s.navigation.current = saved.navigation.current ∧
      s.navigation.history = saved.navigation.history ∧
      s.navigation.place = saved.navigation.place := by
  intro fresh m saved restored s
  have hearlier : ∀ state, Move.act (.restore state) ∈ shownFirst →
      Navigation.ReadsPlace state := by simp [shownFirst]
  have hlater : ∀ move ∈ resumption, move.IsStill := by simp [resumption, Move.IsStill]
  have hok : (Session.restore saved.save m.session).1 = .ok () := by decide +kernel
  have hrunning : restored.running.isSome = true := by decide +kernel
  have hsound : s.log.toList.getLast? = some (.event (.mediaStart .wave "bell.wav")) := by
    decide +kernel
  have hquiet : ∀ e ∈ s.log.toList.drop restored.session.log.toList.length,
      e.isTravel = false := by decide +kernel
  have hposition := restored_position twoScenes { pace := .timed } { pace := .timed } rfl 16 16
    (waiting ⟨"PLAYWAV", "bell.wav"⟩) shownFirst resumption hearlier hlater
  have hm : (ofSession (Session.ofProject twoScenes { pace := .timed } 16)).after
      (waiting ⟨"PLAYWAV", "bell.wav"⟩) = m := rfl
  have hsaved : ((ofSession (Session.ofProject twoScenes { pace := .timed } 16)).after
      shownFirst).session = saved := rfl
  clear_value m saved
  dsimp only at hposition
  rw [hm, hsaved] at hposition
  obtain ⟨-, -, told, hlog, hstays⟩ := hposition hok
  have htold : s.log.toList.drop restored.session.log.toList.length = told := by
    rw [hlog]
    exact List.drop_left
  rw [htold] at hquiet
  exact ⟨hearlier, hlater, hok, hrunning, hsound, hstays hquiet⟩

/-- A list that waits takes the session to another scene, although a saved state was restored
meanwhile, and nothing was asked for since. -/
theorem not_forall_restored_position :
    ¬∀ (p : Project) (presentation : Presentation) (moves earlier later : List Move),
      (∀ state, Move.act (.restore state) ∉ earlier) →
      (∀ move ∈ later, ∃ d : Due, move = .wake d ∧ d.waiter = .running) →
      let fresh := ofSession (Session.ofProject p presentation 16)
      let m := fresh.after moves
      let saved := (fresh.after earlier).session
      let s := ((m.move (.act (.restore saved.save))).after later).session
      (Session.restore saved.save m.session).1 = .ok () →
        s.navigation.current = saved.navigation.current ∧
          s.navigation.history = saved.navigation.history ∧
          s.navigation.place = saved.navigation.place := by
  intro h
  have hwhere := h twoScenes { pace := .timed } (waiting ⟨"SCENE", "2"⟩) shownFirst resumption
    (by simp [shownFirst]) (by simp [resumption])
  revert hwhere
  decide +kernel

end Machine

end PointAndClick
