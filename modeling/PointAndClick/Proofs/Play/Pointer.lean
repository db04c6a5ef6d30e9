import PointAndClick.Proofs.Play.PauseFlags
import PointAndClick.Proofs.Play.Whereabouts

/-!
# The pointer

When the pointer leaves a hotspot, the presentation was told before that it entered it, and of no
other hotspot since (`Machine.exits_match`). But the scene that is told of is the one that is shown
when the pointer leaves: it is the scene of the hotspot only if no other one was shown meanwhile.

Only a step of the pointer tells of hotspots that are entered or left. Whatever else is done adds
other entries to the log, of which those that show a scene change the one that would be told of
(`Session.Ignores`).
-/

set_option autoImplicit false

namespace PointAndClick

/-! ## What a log tells of the pointer -/

namespace LogEntry

/-- The entry tells that the pointer enters or leaves a hotspot. -/
def isHover : LogEntry → Bool
  | .event (.hotspotEnter ..) | .event (.hotspotExit ..) => true
  | _ => false

theorem IsOwn.isHover_eq_false {changing : Bool} {e : LogEntry} (h : e.IsOwn changing) :
    e.isHover = false := by
  unfold isHover
  split
  · exact h.elim
  · exact h.elim
  · rfl

/-- The scene that is shown after some calls to the presentation, where `scene` was shown before. -/
def sceneAfter (scene : Int) (entries : List LogEntry) : Int :=
  entries.foldl (fun scene e => match e.shown? with
    | some index => index
    | none => scene) scene

variable {scene : Int} {id : Nat} {log entries : List LogEntry} {e : LogEntry}

theorem sceneAfter_append (scene : Int) (entries entries' : List LogEntry) :
    sceneAfter scene (entries ++ entries') = sceneAfter (sceneAfter scene entries) entries' :=
  List.foldl_append

theorem sceneAfter_eq_self (h : ∀ e ∈ entries, e.shown? = none) :
    sceneAfter scene entries = scene := by
  induction entries with
  | nil => rfl
  | cons e entries ih =>
      obtain ⟨he, hentries⟩ := List.forall_mem_cons.mp h
      have hskip : sceneAfter scene (e :: entries) = sceneAfter scene entries := by
        simp only [sceneAfter, List.foldl_cons, he]
      rw [hskip, ih hentries]

/-- What a log told last of the pointer is that it entered a hotspot; `scene` is the scene that was
shown last since, or else the one in which the hotspot was entered. -/
def IsOver (log : List LogEntry) (scene : Int) (id : Nat) : Prop :=
  ∃ earlier entered between, log = earlier ++ .event (.hotspotEnter entered id) :: between ∧
    (∀ e ∈ between, e.isHover = false) ∧ scene = sceneAfter entered between

theorem isOver_enter (log : List LogEntry) (scene : Int) (id : Nat) :
    IsOver (log ++ [.event (.hotspotEnter scene id)]) scene id :=
  ⟨log, scene, [], rfl, nofun, rfl⟩

theorem IsOver.append (h : IsOver log scene id) (hentries : ∀ e ∈ entries, e.isHover = false) :
    IsOver (log ++ entries) (sceneAfter scene entries) id := by
  obtain ⟨earlier, entered, between, rfl, hbetween, rfl⟩ := h
  refine ⟨earlier, entered, between ++ entries, by simp, fun e he => ?_, ?_⟩
  · exact (List.mem_append.mp he).elim (hbetween e) (hentries e)
  · rw [sceneAfter_append]

/-- Whenever a log tells that the pointer leaves a hotspot, it told before that it entered it. -/
def ExitsMatch (log : List LogEntry) : Prop :=
  ∀ before scene id after, log = before ++ .event (.hotspotExit scene id) :: after →
    IsOver before scene id

theorem exitsMatch_nil : ExitsMatch [] := by
  intro before scene id after h
  simp at h

/-- One more entry is in order if it is none for leaving a hotspot but the one that the pointer is
on. -/
theorem ExitsMatch.concat (h : ExitsMatch log)
    (he : ∀ scene id, e = .event (.hotspotExit scene id) → IsOver log scene id) :
    ExitsMatch (log ++ [e]) := by
  intro before scene id after hsplit
  rcases List.eq_nil_or_concat after with rfl | ⟨after, last, rfl⟩
  · obtain ⟨rfl, hlast⟩ := List.append_inj' hsplit rfl
    exact he scene id (List.cons.inj hlast).1
  · rw [List.concat_eq_append, ← List.cons_append, ← List.append_assoc] at hsplit
    obtain ⟨hlog, -⟩ := List.append_inj' hsplit rfl
    exact h before scene id after hlog

theorem ExitsMatch.append (h : ExitsMatch log) (hentries : ∀ e ∈ entries, e.isHover = false) :
    ExitsMatch (log ++ entries) := by
  induction entries generalizing log with
  | nil =>
      rw [List.append_nil]
      exact h
  | cons e entries ih =>
      obtain ⟨he, hrest⟩ := List.forall_mem_cons.mp hentries
      have hnext : ExitsMatch (log ++ [e]) := by
        refine h.concat ?_
        rintro scene id rfl
        nomatch he
      rw [List.append_cons]
      exact ih hnext hrest

end LogEntry

open LogEntry

namespace Session

variable {s s' : Session} {p : Presentation}

/-! ## What is done besides -/

@[simp] theorem hovered_told (entry : LogEntry) : (s.told entry).hovered = s.hovered := by
  unfold told
  split <;> rfl

/-- Nothing is done with the pointer: nothing is told of it, and a scene is shown only with the call
for it. -/
structure Ignores (s s' : Session) : Prop where
  presentation : s'.presentation = s.presentation
  hovered : s'.hovered = s.hovered
  scenes : s'.navigation.scenes = s.navigation.scenes
  log : ∃ entries, s'.log.toList = s.log.toList ++ entries ∧ (∀ e ∈ entries, e.isHover = false) ∧
    s'.navigation.currentIndex = sceneAfter s.navigation.currentIndex entries

theorem ignores_of_eq (hpresentation : s'.presentation = s.presentation)
    (hhovered : s'.hovered = s.hovered) (hscenes : s'.navigation.scenes = s.navigation.scenes)
    (hcurrent : s'.navigation.current = s.navigation.current) (hlog : s'.log = s.log) :
    Ignores s s' := by
  refine ⟨hpresentation, hhovered, hscenes, [], by rw [hlog, List.append_nil], nofun, ?_⟩
  unfold Navigation.currentIndex
  rw [hcurrent]
  rfl

theorem Ignores.refl (s : Session) : Ignores s s := ignores_of_eq rfl rfl rfl rfl rfl

theorem Ignores.trans {s₁ s₂ s₃ : Session} (h : Ignores s₁ s₂) (h' : Ignores s₂ s₃) :
    Ignores s₁ s₃ := by
  obtain ⟨entries, hlog, hhover, hindex⟩ := h.log
  obtain ⟨entries', hlog', hhover', hindex'⟩ := h'.log
  refine ⟨h'.presentation.trans h.presentation, h'.hovered.trans h.hovered,
    h'.scenes.trans h.scenes, entries ++ entries', by rw [hlog', hlog, List.append_assoc],
    fun e he => ?_, ?_⟩
  · exact (List.mem_append.mp he).elim (hhover e) (hhover' e)
  · rw [sceneAfter_append, ← hindex, hindex']

theorem ignores_told (s : Session) {entry : LogEntry} (hhover : entry.isHover = false := by rfl)
    (hshown : entry.shown? = none := by rfl) : Ignores s (s.told entry) := by
  refine ⟨presentation_told entry, hovered_told entry, by rw [navigation_told], _,
    toList_log_told s entry, fun e he => ?_, ?_⟩
  · split at he
    · rwa [List.mem_singleton.mp he]
    · nomatch he
  · rw [navigation_told]
    refine (sceneAfter_eq_self fun e he => ?_).symm
    split at he
    · rwa [List.mem_singleton.mp he]
    · nomatch he

/-- The call that shows a scene is kept in the log. -/
theorem ignores_shown (s : Session) (hrecords : s.presentation.records = true) (target : Nat)
    (recorded : Bool) :
    Ignores s ((s.shown target recorded).told (.call (.goToScene target))) := by
  obtain ⟨history, place, henter⟩ := s.navigation.enter_eq target recorded
  have hshown : (s.shown target recorded).navigation =
      { s.navigation with current := some target, history, place } := henter
  have hrecorded : (s.shown target recorded).presentation.records = true := hrecords
  refine ⟨presentation_told _, hovered_told _, ?_, [.call (.goToScene target)], ?_, ?_, ?_⟩
  · rw [navigation_told, hshown]
  · rw [toList_log_told, if_pos hrecorded]
    rfl
  · intro e he
    rw [List.mem_singleton.mp he]
    rfl
  · rw [navigation_told, hshown]
    rfl

theorem follows_hovered : Follows fun s s' => s'.hovered = s.hovered where
  refl _ := rfl
  trans h h' := h'.trans h
  told _ entry _ _ := hovered_told entry
  write name value s := by
    rw [writeVariable_apply]
    split
    · rfl
    · rw [emit, tell_apply]
      exact hovered_told _
  font _ _ := rfl
  quit _ := rfl
  navigation _ _ := rfl
  depth _ _ := rfl
  startTimer _ _ _ _ := rfl
  stopTimer _ _ := rfl

theorem Serves.ignores (h : Serves s s') (hhovered : s'.hovered = s.hovered) : Ignores s s' := by
  obtain ⟨entries, hlog, hown⟩ := h.log
  refine ⟨h.presentation, hhovered, h.scenes, entries, hlog, fun e he => (hown e he).isHover_eq_false,
    ?_⟩
  rw [sceneAfter_eq_self fun e he => (hown e he).not_shown.1]
  unfold Navigation.currentIndex
  rw [h.current]

/-- No command moves the pointer. -/
theorem ignores_perform {verb : Verb} {i : Instruction} {outcome : Except Fault Next}
    (h : perform verb i s = (outcome, s')) : Ignores s s' := by
  have hperforms := performs verb i s
  have hhovered : (perform verb i s).2.hovered = s.hovered := follows_hovered.perform verb i s
  rw [h] at hperforms hhovered
  cases hperforms with
  | fails hserves | done hserves | waits hserves => exact hserves.ignores hhovered
  | nests hdepth => exact ignores_of_eq rfl rfl rfl rfl rfl
  | changes hserves hfree =>
      exact (hserves.ignores hhovered).trans (ignores_of_eq rfl rfl rfl rfl rfl)

/-- No step of a list moves the pointer. -/
theorem ignores_step (hrecords : s.presentation.records = true) {flow : Flow} {frame : Frame}
    {frames : List Frame} {progress : Progress}
    (hsteps : Steps s flow frame frames (s', progress)) : Ignores s s' := by
  cases hsteps with
  | idle | unknown | leaveNone => exact Ignores.refl s
  | refused | report | leave => exact ignores_told s
  | command hquit hverb hanswer hperform => exact (ignores_told s).trans (ignores_perform hperform)
  | nested | transition => exact ignores_of_eq rfl rfl rfl rfl rfl
  | hidden => exact ignores_shown s hrecords _ _
  | unannounced | arrive => exact (ignores_shown s hrecords _ _).trans (ignores_told _)

/-! ## Sessions with a pointer -/

/-- The presentation keeps a log and refuses no events, what it was told of the pointer is in order,
and the hotspot that the pointer is on is the one that it was told of. -/
structure Pointed (p : Presentation) (s : Session) : Prop where
  presentation : s.presentation = p
  records : p.records = true
  accepts : p.HearsEvents
  exits : ExitsMatch s.log.toList
  pointer : ∀ id, s.hoveredId? = some id → IsOver s.log.toList s.navigation.currentIndex id

theorem Pointed.ignores (h : Pointed p s) (hignores : Ignores s s') : Pointed p s' := by
  obtain ⟨entries, hlog, hhover, hindex⟩ := hignores.log
  refine ⟨hignores.presentation.trans h.presentation, h.records, h.accepts, ?_, fun id hid => ?_⟩
  · rw [hlog]
    exact h.exits.append hhover
  · have hsame : s'.hoveredId? = s.hoveredId? := by
      unfold hoveredId? hotspot?
      rw [hignores.hovered, hignores.scenes]
    rw [hlog, hindex]
    exact (h.pointer id (hsame ▸ hid)).append hhover

theorem Pointed.emit_apply (h : Pointed p s) (e : Event) :
    emit e s = (.ok (), s.told (.event e)) := by
  rw [emit, tell_apply, answer_event (h.presentation ▸ h.accepts)]

theorem Pointed.log_told (h : Pointed p s) (entry : LogEntry) :
    (s.told entry).log.toList = s.log.toList ++ [entry] := by
  rw [toList_log_told, h.presentation, h.records]
  rfl

/-- Where the pointer is on no hotspot, there is none to leave. -/
theorem Pointed.away (h : Pointed p s) {found : Option HotspotRef}
    (hnone : found.bind s.hotspot? = none) : Pointed p { s with hovered := found } := by
  refine ⟨h.presentation, h.records, h.accepts, h.exits, fun id hid => ?_⟩
  have hsame : hoveredId? { s with hovered := found } = (found.bind s.hotspot?).map (·.id) := rfl
  rw [hsame, hnone] at hid
  nomatch hid

/-- The pointer leaves the hotspot that it was on, of which it was told that it entered it. -/
theorem Pointed.leave (h : Pointed p s) {id : Nat} (hid : s.hoveredId? = some id) :
    Pointed p { s.told (.event (.hotspotExit s.navigation.currentIndex id)) with
      hovered := none } := by
  refine ⟨(presentation_told _).trans h.presentation, h.records, h.accepts, ?_, nofun⟩
  show ExitsMatch (s.told _).log.toList
  rw [h.log_told]
  refine h.exits.concat ?_
  rintro scene id' ⟨⟩
  exact h.pointer id hid

/-- The pointer enters a hotspot, in the scene that is shown. -/
theorem Pointed.enter (h : Pointed p s) {found : Option HotspotRef} {hotspot : Hotspot}
    (hfound : found.bind s.hotspot? = some hotspot) :
    Pointed p (told { s with hovered := found }
      (.event (.hotspotEnter s.navigation.currentIndex hotspot.id))) := by
  have hlog : (told { s with hovered := found }
      (.event (.hotspotEnter s.navigation.currentIndex hotspot.id))).log.toList =
        s.log.toList ++ [.event (.hotspotEnter s.navigation.currentIndex hotspot.id)] := by
    rw [toList_log_told, h.presentation, h.records]
    rfl
  refine ⟨(presentation_told _).trans h.presentation, h.records, h.accepts, ?_, fun id hid => ?_⟩
  · rw [hlog]
    exact h.exits.concat nofun
  · have hsame : hoveredId? (told { s with hovered := found }
        (.event (.hotspotEnter s.navigation.currentIndex hotspot.id))) = some hotspot.id := by
      unfold hoveredId? hotspot?
      rw [hovered_told, navigation_told]
      exact congrArg (Option.map (·.id)) hfound
    rw [hsame] at hid
    obtain rfl := Option.some.inj hid
    rw [hlog, navigation_told]
    exact isOver_enter _ _ _

/-- The pointer comes to where it enters a hotspot, or to where there is none, once it has left the
one that it was on. -/
theorem Pointed.come (h : Pointed p { s with hovered := none }) {n : Navigation}
    (hnavigation : s.navigation = n) {at? : HotspotRef → Option Hotspot} (hat : s.hotspot? = at?)
    (found : Option HotspotRef) (reply : Machine.Plan) (plan : Hotspot → Machine.Plan) :
    Pointed p ((do
      modify fun s => { s with hovered := found }
      match found.bind at? with
      | none => return reply
      | some hotspot =>
          emit (.hotspotEnter n.currentIndex hotspot.id)
          return plan hotspot : Act Machine.Plan) s).2 := by
  subst hnavigation hat
  rw [modify_bind_apply]
  cases hfound : found.bind s.hotspot? with
  | none => exact h.away hfound
  | some hotspot =>
      have henter := h.enter hfound
      dsimp only
      rw [bind_apply, emit, tell_apply]
      cases answer { s with hovered := found } _ <;> exact henter

/-- Wherever the pointer moves, what is told of it stays in order. -/
theorem Pointed.planHover (h : Pointed p s) (point : Point) :
    Pointed p (Machine.planHover point s).2 := by
  unfold Machine.planHover
  rw [get_bind_apply]
  dsimp only
  split
  · exact h
  · cases hid : s.hoveredId? with
    | none => exact Pointed.come (h.away rfl) rfl rfl _ _ _
    | some id =>
        dsimp only
        rw [bind_apply, h.emit_apply]
        refine Pointed.come (h.leave hid) (navigation_told _) ?_ _ _ _
        unfold hotspot?
        rw [navigation_told]

theorem Pointed.planActivate (h : Pointed p s) (r : HotspotRef) (reply : Reply) :
    Pointed p (Machine.planActivate r reply s).2 := by
  unfold Machine.planActivate
  rw [get_bind_apply]
  cases s.hotspot? r with
  | none => exact h
  | some hotspot =>
      dsimp only
      rw [bind_apply, h.emit_apply]
      exact h.ignores (ignores_told s)

/-- Whatever a user does but to restore a saved state, what is told of the pointer stays in
order. -/
theorem Pointed.plan (h : Pointed p s) {a : Machine.Action} (ha : ∀ state, a ≠ .restore state) :
    Pointed p (Machine.plan a s).2 := by
  have hmedia {s' : Session} (c : Call) (hs' : Ignores s s')
      (hhover : (LogEntry.call c).isHover = false := by rfl)
      (hshown : (LogEntry.call c).shown? = none := by rfl) : Pointed p (call c s').2 := by
    rw [call, tell_apply]
    exact h.ignores (hs'.trans (ignores_told s' hhover hshown))
  have hhistory {go : Navigation → Navigation × Except Fault (Option Nat)}
      (hgo : ∀ n, ∃ place, (go n).1 = { n with place }) :
      Pointed p (Machine.planHistory go s).2 := by
    obtain ⟨place, hplace⟩ := hgo s.navigation
    have hmoved : Pointed p (navigating go s).2 := by
      rw [navigating_apply, hplace]
      exact h.ignores (ignores_of_eq rfl rfl rfl rfl rfl)
    unfold Machine.planHistory
    rw [bind_apply]
    rcases hact : navigating go s with ⟨_ | _ | _, s'⟩ <;> rw [hact] at hmoved <;> exact hmoved
  cases a with
  | restore state => exact absurd rfl (ha state)
  | execute _ | hitTest _ | save => exact h
  | hover point => exact h.planHover point
  | activate r => exact h.planActivate r _
  | back => exact hhistory back_eq
  | forward => exact hhistory forward_eq
  | goToScene ref =>
      simp only [Machine.plan]
      rw [get_bind_apply, bind_apply, given_apply]
      cases s.navigation.resolve ref with
      | error e => exact h
      | ok index => exact h.away rfl
  | click point =>
      simp only [Machine.plan]
      rw [get_bind_apply]
      cases s.hitTest point with
      | none => exact h
      | some r => exact h.planActivate r _
  | pause =>
      rw [Machine.plan, snd_reply, pause_apply]
      split
      · exact h
      · exact hmedia .pauseMedia (ignores_of_eq rfl rfl rfl rfl rfl)
  | resume =>
      rw [Machine.plan, snd_reply, resume_apply]
      split
      · exact hmedia .resumeMedia (ignores_of_eq rfl rfl rfl rfl rfl)
      · exact h
  | stop =>
      rw [Machine.plan, snd_reply, stop, modify_bind_apply]
      exact hmedia .stopAll (ignores_of_eq rfl rfl rfl rfl rfl)
  | pauseTimers _ | resumeTimers _ | stopTimer _ =>
      exact h.ignores (ignores_of_eq rfl rfl rfl rfl rfl)

theorem upkeep_pointed (p : Presentation) :
    Upkeep (fun a => ∀ state, a ≠ .restore state) (fun _ => True) fun s _ _ => Pointed p s where
  free _ _ _ h := h.ignores (ignores_of_eq rfl rfl rfl rfl rfl)
  idle h := h
  list _ h := h
  change _ _ _ h := h.ignores (ignores_of_eq rfl rfl rfl rfl rfl)
  tick _ _ h := h.ignores (ignores_told _)
  step {s} _ _ _ _ _ hsteps h := by
    have hrecords : s.presentation.records = true := by
      rw [h.presentation]
      exact h.records
    exact h.ignores (ignores_step hrecords hsteps)
  plan ha h := h.plan ha
  asks _ _ := trivial
  ticks _ := trivial

end Session

namespace Machine

open Session

/-- What the presentation is told of the pointer. As long as it refuses no events and nobody restores
a saved state, whatever users, timers and lists do: whenever it is told that the pointer leaves a
hotspot, the last that it was told of the pointer is that it entered this one, so that each is left
at most once. The scene that is told of is the one shown when the pointer leaves: the scene that the
hotspot was entered in, unless another one was shown since. -/
theorem exits_match (p : Project) (presentation : Presentation)
    (hrecords : presentation.records = true)
    (haccepts : presentation.HearsEvents) (minInterval : Int)
    (moves : List Move) (hmoves : ∀ state, Move.act (.restore state) ∉ moves) :
    let s := ((ofSession (Session.ofProject p presentation minInterval)).after moves).session
    ∀ before scene id after, s.log.toList = before ++ .event (.hotspotExit scene id) :: after →
      ∃ earlier entered between, before = earlier ++ .event (.hotspotEnter entered id) :: between ∧
        (∀ e ∈ between, e.isHover = false) ∧ scene = sceneAfter entered between := by
  intro s
  have hfresh : Upkept (fun _ => True) (fun s _ _ => Pointed presentation s)
      (Ledger.ofSession (Session.ofProject p presentation minInterval)).machine :=
    ⟨rfl, fun _ _ => trivial, rfl, hrecords, haccepts, exitsMatch_nil, nofun⟩
  have hrespects : ∀ move ∈ moves,
      move.Respects (fun a => ∀ state, a ≠ .restore state) (fun _ => True) := by
    intro move hmove
    cases move with
    | act a =>
        rintro state rfl
        exact hmoves state hmove
    | _ => trivial
  have hupkept := upkept_after (upkeep_pointed presentation) (Ledger.fair_ofSession rfl rfl) hfresh
    hrespects
  rw [Ledger.machine_after (Ledger.fair_ofSession rfl rfl)] at hupkept
  have hpointed : Pointed presentation s := hupkept.holds
  exact hpointed.exits

/-- Two scenes, the first of them with a hotspot. -/
def gallery : Project where
  scenes := [{ index := 0, hotspots := [{ id := 7, shape := some (.rectangle 0 0 9 9) }] },
    { index := 1 }]

/-- The pointer is on the hotspot while a list shows the other scene, and moves then. -/
def stroll : List Move :=
  [.act (.goToScene (.index 0)), .act (.hover ⟨5, 5⟩), .act (.execute [⟨"SCENE", "2"⟩]),
    .act (.hover ⟨50, 50⟩)]

/-- What is told before the pointer moves for the second time. -/
def strolled : List LogEntry :=
  [.call (.goToScene 0), .event (.sceneEnter 0 ""), .event (.hotspotEnter 0 7),
    .event (.commandExecute "SCENE" "2"), .event (.sceneExit 0), .call (.goToScene 1),
    .event (.sceneEnter 1 "")]

theorem log_stroll :
    ((ofSession (Session.ofProject gallery {} 16)).after stroll).session.log.toList =
      strolled ++ [.event (.hotspotExit 1 7)] := by
  decide +kernel

theorem exits_match_stroll :
    (∀ state, Move.act (.restore state) ∉ stroll) ∧
      ∃ earlier entered between,
        strolled = earlier ++ .event (.hotspotEnter entered 7) :: between ∧
          (∀ e ∈ between, e.isHover = false) ∧ 1 = sceneAfter entered between := by
  have hmoves : ∀ state, Move.act (.restore state) ∉ stroll := by simp [stroll]
  exact ⟨hmoves, exits_match gallery {} rfl (fun _ _ => rfl) 16 stroll hmoves strolled 1 7 [] log_stroll⟩

/-- The scene that is told of when the pointer leaves a hotspot may be another one than that in
which it entered it. -/
theorem not_forall_exits_match :
    ¬∀ (p : Project) (moves : List Move), (∀ state, Move.act (.restore state) ∉ moves) →
      ∀ before scene id after,
        ((ofSession (Session.ofProject p {} 16)).after moves).session.log.toList =
          before ++ .event (.hotspotExit scene id) :: after →
        ∃ earlier between, before = earlier ++ .event (.hotspotEnter scene id) :: between ∧
          ∀ e ∈ between, e.isHover = false := by
  intro h
  obtain ⟨earlier, between, hbefore, -⟩ :=
    h gallery stroll (by simp [stroll]) strolled 1 7 [] log_stroll
  have hentered : .event (.hotspotEnter 1 7) ∈ strolled := by
    rw [hbefore]
    exact List.mem_append_right earlier List.mem_cons_self
  revert hentered
  decide

end Machine

end PointAndClick
