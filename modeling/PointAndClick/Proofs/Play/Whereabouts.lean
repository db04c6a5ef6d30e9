import PointAndClick.Proofs.Play.Course
import PointAndClick.Proofs.Play.Upkeep
import PointAndClick.Proofs.Play.Ways

/-!
# The scene shown and the history

While nothing runs, the scene shown is the entry of the history at the place, and the last one that
was told of (`Machine.whereabouts`). In the course of a change of scene this need not be so: on a
way back the place moves first, and the scene is shown only after the commands for leaving the old
one. What holds then is that the way leads to the entry at the place, unless an entry will be made
for it (`Navigation.Heads`).
-/

set_option autoImplicit false

namespace PointAndClick

/-- The frame has yet to show a scene. -/
def Frame.isWay : Frame → Bool
  | .leaving .. | .arriving .. => true
  | _ => false

/-- The scene that the presentation is called on to show. -/
def LogEntry.shown? : LogEntry → Option Nat
  | .call (.goToScene index) => some index
  | _ => none

/-- The scene that is told of as entered. -/
def LogEntry.entered? : LogEntry → Option Nat
  | .event (.sceneEnter index _) => some index
  | _ => none

theorem LogEntry.IsOwn.not_shown {changing : Bool} {e : LogEntry} (h : e.IsOwn changing) :
    e.shown? = none ∧ e.entered? = none := by
  constructor
  · unfold shown?
    split
    · exact h.elim
    · rfl
  · unfold entered?
    split
    · exact h.elim
    · rfl

theorem LogEntry.IsOutside.not_shown {e : LogEntry} (h : e.IsOutside) :
    e.shown? = none ∧ e.entered? = none := by
  constructor
  · unfold shown?
    split
    · exact h.elim
    · rfl
  · unfold entered?
    split
    · exact h.elim
    · rfl

namespace Navigation

variable {n n' : Navigation} {frames : List Frame}

/-- The entry of the history at the place. -/
def atPlace? (n : Navigation) : Option Nat := n.place.bind (n.history[·]?)

/-- By what is still to do: the scene shown is the entry at the place, or a scene is yet to be shown
which is that entry or will get one. -/
def Heads (n : Navigation) : List Frame → Prop
  | [] => n.current = n.atPlace?
  | .leaving target recorded :: frames | .arriving target recorded :: frames =>
      n.transitioning = true ∧ target < n.scenes.length ∧
        (recorded = false → n.atPlace? = some target) ∧ ∀ f ∈ frames, f.isWay = false
  | .transition :: frames => n.current = n.atPlace? ∧ ∀ f ∈ frames, f.isWay = false
  | _ :: frames => n.Heads frames

/-- With no scene yet to be shown, the scene shown is the entry at the place. -/
theorem heads_of_settled (hentry : n.current = n.atPlace?)
    (hframes : ∀ f ∈ frames, f.isWay = false) : n.Heads frames := by
  induction frames with
  | nil => exact hentry
  | cons frame frames ih =>
      obtain ⟨hframe, hbelow⟩ := List.forall_mem_cons.mp hframes
      cases frame with
      | leaving _ _ | arriving _ _ => nomatch hframe
      | transition => exact ⟨hentry, hbelow⟩
      | commands _ | guarded _ | nested => exact ih hbelow

/-- Between changes of scene no scene is yet to be shown. -/
theorem Heads.settled (h : n.Heads frames) (hfree : n.transitioning = false) :
    n.current = n.atPlace? ∧ ∀ f ∈ frames, f.isWay = false := by
  induction frames with
  | nil => exact ⟨h, nofun⟩
  | cons frame frames ih =>
      have hcons (hbelow : n.Heads frames) (hframe : frame.isWay = false) :
          n.current = n.atPlace? ∧ ∀ f ∈ frame :: frames, f.isWay = false := by
        obtain ⟨hentry, hframes⟩ := ih hbelow
        exact ⟨hentry, List.forall_mem_cons.mpr ⟨hframe, hframes⟩⟩
      cases frame with
      | leaving _ _ | arriving _ _ =>
          have hchanging := h.1
          rw [hfree] at hchanging
          nomatch hchanging
      | transition => exact ⟨h.1, List.forall_mem_cons.mpr ⟨rfl, h.2⟩⟩
      | commands _ | guarded _ | nested => exact hcons h rfl

/-- Hotspots make no difference. -/
theorem Heads.disabled (h : n.Heads frames) (disabled : List (Int × Int)) :
    Heads { n with disabled } frames := by
  induction frames with
  | nil => exact h
  | cons frame frames ih =>
      cases frame with
      | leaving _ _ | arriving _ _ | transition => exact h
      | commands _ | guarded _ | nested => exact ih h

/-- A scene that is entered is the entry at the place, if it was before or gets one now. -/
theorem atPlace?_enter {target : Nat} {recorded : Bool} (hmax : 0 < n.maxHistory)
    (hentry : recorded = false → n.atPlace? = some target) :
    (n.enter target recorded).current = some target ∧
      (n.enter target recorded).atPlace? = some target := by
  cases recorded with
  | false => exact ⟨rfl, hentry rfl⟩
  | true =>
      refine ⟨rfl, ?_⟩
      obtain ⟨before, hhistory, hplace, -, -⟩ :=
        record_eq { n with current := some target } target hmax
      show (record { n with current := some target } target).atPlace? = some target
      unfold atPlace?
      rw [hplace, hhistory]
      simp

/-- Going back leads to the entry at the new place. -/
theorem atPlace?_of_back {place : Option Nat} {index : Nat}
    (hback : n.back = ({ n with place }, .ok (some index))) :
    atPlace? { n with place } = some index := by
  rcases Session.back_cases n with hnone | ⟨p, -, hsome⟩
  · rw [hback] at hnone
    nomatch congrArg Prod.snd hnone
  · rw [hback] at hsome
    obtain ⟨hmoved, hentry⟩ := Prod.mk.inj hsome
    have hplace : place = some p := congrArg Navigation.place hmoved
    have hget : n.history[p]? = some index := by
      unfold entryAt at hentry
      cases hp : n.history[p]? with
      | none =>
          rw [hp] at hentry
          nomatch hentry
      | some i =>
          rw [hp] at hentry
          cases hentry
          rfl
    show place.bind (n.history[·]?) = some index
    rw [hplace]
    exact hget

end Navigation

namespace Session

variable {s s' : Session}

/-! ## What was told last -/

/-- The scene that was told of last in some way. -/
def lastTold (s : Session) (scene? : LogEntry → Option Nat) : Option Nat :=
  (s.log.toList.filterMap scene?).getLast?

/-- The scene shown and the history stay as they are, and nothing is told of scenes that are shown
or entered. -/
structure Lingers (s s' : Session) : Prop where
  presentation : s'.presentation = s.presentation
  scenes : s'.navigation.scenes = s.navigation.scenes
  maxHistory : s'.navigation.maxHistory = s.navigation.maxHistory
  current : s'.navigation.current = s.navigation.current
  history : s'.navigation.history = s.navigation.history
  log : ∃ entries, s'.log.toList = s.log.toList ++ entries ∧
    ∀ e ∈ entries, e.shown? = none ∧ e.entered? = none

theorem Serves.lingers (h : Serves s s') : Lingers s s' := by
  obtain ⟨entries, hlog, hown⟩ := h.log
  exact ⟨h.presentation, h.scenes, h.maxHistory, h.current, h.history, entries, hlog,
    fun e he => (hown e he).not_shown⟩

theorem Calmly.lingers (h : Calmly s s') : Lingers s s' := by
  obtain ⟨entries, hlog, houtside⟩ := h.log
  have hnavigation := h.navigation
  exact ⟨h.presentation, h.scenes, by rw [hnavigation], by rw [hnavigation], by rw [hnavigation],
    entries, hlog, fun e he => (houtside e he).not_shown⟩

theorem lingers_told (s : Session) {entry : LogEntry}
    (h : entry.shown? = none ∧ entry.entered? = none) : Lingers s (s.told entry) := by
  refine ⟨presentation_told entry, by rw [navigation_told], by rw [navigation_told],
    by rw [navigation_told], by rw [navigation_told], _, toList_log_told s entry, ?_⟩
  intro e he
  split at he
  · rw [List.mem_singleton.mp he]
    exact h
  · nomatch he

/-- Whatever a command does by itself, it shows no scene. -/
theorem lingers_perform {verb : Verb} {i : Instruction} {outcome : Except Fault Next}
    (h : perform verb i s = (outcome, s')) : Lingers s s' := by
  have hperforms := performs verb i s
  rw [h] at hperforms
  cases hperforms with
  | fails hserves | done hserves | waits hserves => exact hserves.lingers
  | nests hdepth =>
      have hsame := (Serves.refl s).lingers
      exact ⟨hsame.presentation, hsame.scenes, hsame.maxHistory, hsame.current, hsame.history,
        hsame.log⟩
  | changes hserves hfree =>
      have hsame := hserves.lingers
      exact ⟨hsame.presentation, hsame.scenes, hsame.maxHistory, hsame.current, hsame.history,
        hsame.log⟩

theorem Lingers.lastTold (h : Lingers s s') :
    s'.lastTold LogEntry.shown? = s.lastTold LogEntry.shown? ∧
      s'.lastTold LogEntry.entered? = s.lastTold LogEntry.entered? := by
  obtain ⟨entries, hlog, hnone⟩ := h.log
  have hsame (scene? : LogEntry → Option Nat) (hscene : ∀ e ∈ entries, scene? e = none) :
      s'.lastTold scene? = s.lastTold scene? := by
    unfold Session.lastTold
    rw [hlog, List.filterMap_append, List.filterMap_eq_nil_iff.mpr hscene, List.append_nil]
  exact ⟨hsame _ fun e he => (hnone e he).1, hsame _ fun e he => (hnone e he).2⟩

theorem lastTold_told (s : Session) {entry : LogEntry} {scene? : LogEntry → Option Nat}
    {index : Nat} (hrecords : s.presentation.records = true) (h : scene? entry = some index) :
    (s.told entry).lastTold scene? = some index := by
  unfold lastTold
  rw [toList_log_told, if_pos hrecords, List.filterMap_append, List.filterMap_cons, h]
  simp

theorem lastTold_told_of_none (s : Session) {entry : LogEntry} {scene? : LogEntry → Option Nat}
    (h : scene? entry = none) : (s.told entry).lastTold scene? = s.lastTold scene? := by
  unfold lastTold
  rw [toList_log_told]
  split
  · rw [List.filterMap_append, List.filterMap_cons, h]
    simp
  · rw [List.append_nil]

/-! ## Where a session stands -/

/-- The presentation refuses nothing, the navigation is sound, and what was told of the scene shown
is right. -/
structure Tracks (presentation : Presentation) (s : Session) : Prop where
  same : s.presentation = presentation
  accepts : presentation.RefusesNothing
  sound : s.navigation.Sound
  limit : 0 < s.navigation.maxHistory
  numbered : ∀ i (h : i < s.navigation.scenes.length), s.navigation.scenes[i].index = i
  fresh : s.navigation.current = none → s.navigation.history = []
  told : presentation.records = true →
    s.lastTold LogEntry.shown? = s.navigation.current ∧
      s.lastTold LogEntry.entered? = s.navigation.current

variable {presentation : Presentation}

theorem Tracks.answer (h : Tracks presentation s) (entry : LogEntry) :
    s.answer entry = .ok () := by
  refine answer_of_accepted ?_
  rw [h.same]
  exact h.accepts _ entry

theorem Tracks.lingers (h : Tracks presentation s) (hlingers : Lingers s s')
    (hsound : s'.navigation.Sound) : Tracks presentation s' := by
  obtain ⟨hshown, hentered⟩ := hlingers.lastTold
  constructor
  · exact hlingers.presentation.trans h.same
  · exact h.accepts
  · exact hsound
  · rw [hlingers.maxHistory]
    exact h.limit
  · rw [hlingers.scenes]
    exact h.numbered
  · rw [hlingers.current, hlingers.history]
    exact h.fresh
  · rw [hshown, hentered, hlingers.current]
    exact h.told

theorem Tracks.tell (h : Tracks presentation s) {entry : LogEntry}
    (hentry : entry.shown? = none ∧ entry.entered? = none) :
    Tracks presentation (s.told entry) := by
  refine h.lingers (lingers_told s hentry) ?_
  rw [navigation_told]
  exact h.sound

/-- A scene that is shown is told of. -/
theorem Tracks.arrive (h : Tracks presentation s) {target : Nat} {recorded : Bool} (name : String)
    (htarget : target < s.navigation.scenes.length) :
    Tracks presentation (((s.shown target recorded).told (.call (.goToScene target))).told
      (.event (.sceneEnter target name))) := by
  obtain ⟨history, place, henter⟩ := s.navigation.enter_eq target recorded
  have hsound : (s.navigation.enter target recorded).Sound := h.sound.enter h.limit htarget recorded
  have hnavigation : (((s.shown target recorded).told (.call (.goToScene target))).told
      (.event (.sceneEnter target name))).navigation = s.navigation.enter target recorded := by
    rw [navigation_told, navigation_told]
    rfl
  constructor
  · rw [presentation_told, presentation_told]
    exact h.same
  · exact h.accepts
  · rw [hnavigation]
    exact hsound
  · rw [hnavigation, henter]
    exact h.limit
  · rw [hnavigation, henter]
    exact h.numbered
  · rw [hnavigation, henter]
    exact nofun
  · intro hrecords
    have hcall : (s.shown target recorded).presentation.records = true := by
      rw [← hrecords, ← h.same]
      rfl
    rw [hnavigation, henter]
    constructor
    · rw [lastTold_told_of_none _ rfl]
      exact lastTold_told _ hcall rfl
    · refine lastTold_told _ ?_ rfl
      rw [presentation_told]
      exact hcall

/-- A session and what is still to do in it: what was told is right, the scene shown and the history
agree as far as is still to do, and what fails is the command on top. -/
structure Whereabouts (presentation : Presentation) (s : Session) (flow : Flow)
    (frames : List Frame) : Prop extends Tracks presentation s where
  heads : s.navigation.Heads frames
  failing : ∀ e, flow = .failing e → ∃ i below, frames = .guarded i :: below

variable {flow : Flow} {frame : Frame} {frames : List Frame}

/-- A command that sets out goes to an entry at the place, or to a scene that gets one. -/
theorem Tracks.departs (h : Tracks presentation s) (hheads : s.navigation.Heads frames)
    {verb : Verb} {i : Instruction} {index : Nat} {target : Scene} {recorded : Bool}
    {place : Option Nat}
    (hlingers : Lingers s s') (hscene : s.navigation.scenes[index]? = some target)
    (hfree : s.navigation.transitioning = false)
    (hnavigation : s'.navigation = { s.navigation with place, transitioning := true })
    (hway : Way verb s.navigation index recorded place) :
    Whereabouts presentation s' .going
      (.leaving target.index recorded :: .transition :: .guarded i :: frames) := by
  obtain ⟨hlt, hget⟩ := List.getElem?_eq_some_iff.mp hscene
  have hindex : target.index = index := by
    rw [← hget]
    exact h.numbered index hlt
  obtain ⟨-, hbelow⟩ := hheads.settled hfree
  have hsound : s'.navigation.Sound := by
    rw [hnavigation]
    cases hway with
    | straight hlink => exact h.sound.of_eq rfl rfl rfl rfl rfl
    | back hverb hlink hback =>
        have hmoved := h.sound.back
        rw [hback] at hmoved
        exact hmoved.of_eq rfl rfl rfl rfl rfl
  refine ⟨h.lingers hlingers hsound, ?_, nofun⟩
  rw [hnavigation, hindex]
  refine ⟨rfl, hlt, ?_, ?_⟩
  · intro hunrecorded
    cases hway with
    | straight hlink => nomatch hunrecorded
    | back hverb hlink hback => exact Navigation.atPlace?_of_back hback
  · intro f hf
    rcases List.mem_cons.mp hf with rfl | hf
    · rfl
    · rcases List.mem_cons.mp hf with rfl | hf
      · rfl
      · exact hbelow f hf

/-- No command loses its way. -/
theorem Tracks.perform (h : Tracks presentation s) (hheads : s.navigation.Heads frames)
    {verb : Verb} {i : Instruction} {outcome : Except Fault Next}
    (hperform : perform verb i s = (outcome, s')) :
    Whereabouts presentation s' (progressOf i frames outcome).flow
      (progressOf i frames outcome).frames := by
  have hlingers : Lingers s s' := lingers_perform hperform
  have htravels := travels verb i s
  rw [hperform] at htravels
  cases htravels with
  | strays hverb hlink hnavigation hcause => exact absurd h.sound (hcause (h.answer _))
  | departs hscene hfree hanswer hnavigation hway =>
      exact h.departs hheads hlingers hscene hfree hnavigation hway
  | stays hstays hnext =>
      obtain ⟨disabled, hnavigation⟩ := hstays
      have hsound : s'.navigation.Sound := by
        rw [hnavigation]
        exact h.sound.of_eq rfl rfl rfl rfl rfl
      have htracks : Tracks presentation s' := h.lingers hlingers hsound
      have hstill : s'.navigation.Heads frames := by
        rw [hnavigation]
        exact hheads.disabled disabled
      have hperforms := performs verb i s
      rw [hperform] at hperforms
      cases hperforms with
      | fails _ => exact ⟨htracks, hstill, fun _ _ => ⟨i, frames, rfl⟩⟩
      | done _ | waits _ | nests _ => exact ⟨htracks, hstill, nofun⟩
      | changes _ _ => exact absurd rfl (hnext _ _)

theorem Whereabouts.step {p : Progress} (hsteps : Steps s flow frame frames (s', p))
    (h : Whereabouts presentation s flow (frame :: frames)) :
    Whereabouts presentation s' p.flow p.frames := by
  have htracks := h.toTracks
  have hheads := h.heads
  have haccepts {s₁ : Session} (hsame : s₁.presentation = s.presentation) {entry : LogEntry}
      {e : Fault} : s₁.answer entry ≠ .error e := by
    rw [answer_of_accepted (hsame ▸ htracks.same ▸ htracks.accepts _ entry)]
    nofun
  have hgoing : (∀ i, frame ≠ .guarded i) → ∀ e, flow ≠ .failing e := by
    intro hframe e he
    obtain ⟨i, below, heq⟩ := h.failing e he
    exact hframe i (List.cons.inj heq).1
  cases hsteps with
  | idle hidle =>
      cases flow with
      | failing e =>
          obtain ⟨i, below, heq⟩ := h.failing e rfl
          obtain ⟨rfl, -⟩ := List.cons.inj heq
          exact hidle.elim
      | going =>
          cases frame with
          | commands _ | guarded _ => exact ⟨htracks, hheads, nofun⟩
          | arriving target recorded =>
              -- the scene is there
              exact absurd (List.getElem?_eq_none_iff.mp hidle) (Nat.not_le.mpr hheads.2.1)
          | leaving _ _ | nested | transition => exact hidle.elim
  | unknown hquit hverb => exact ⟨htracks, hheads, nofun⟩
  | refused hquit hverb hanswer => exact absurd hanswer (haccepts rfl)
  | @command i rest _ verb outcome _ hquit hverb hanswer hperform =>
      have htold : Tracks presentation (s.told (executed i)) := htracks.tell ⟨rfl, rfl⟩
      refine htold.perform ?_ hperform
      rw [navigation_told]
      exact hheads
  | @report e i =>
      rw [htracks.answer]
      refine ⟨htracks.tell ⟨rfl, rfl⟩, ?_, nofun⟩
      rw [navigation_told]
      exact hheads
  | nested =>
      refine ⟨⟨htracks.same, htracks.accepts, htracks.sound, htracks.limit,
        htracks.numbered, htracks.fresh, htracks.told⟩, hheads, ?_⟩
      exact fun e he => absurd he (hgoing nofun e)
  | transition =>
      refine ⟨⟨htracks.same, htracks.accepts, htracks.sound.of_eq rfl rfl rfl rfl rfl,
        htracks.limit, htracks.numbered, htracks.fresh, htracks.told⟩, ?_, ?_⟩
      · exact Navigation.heads_of_settled hheads.1 hheads.2
      · exact fun e he => absurd he (hgoing nofun e)
  | leaveNone hscene => exact ⟨htracks, hheads, nofun⟩
  | leave hscene =>
      rw [htracks.answer]
      refine ⟨htracks.tell ⟨rfl, rfl⟩, ?_, nofun⟩
      rw [navigation_told]
      exact hheads
  | hidden hscene hanswer => exact absurd hanswer (haccepts rfl)
  | unannounced hscene hcall hanswer => exact absurd hanswer (haccepts (presentation_told _))
  | @arrive target recorded _ scene hscene hcall hanswer =>
      obtain ⟨hchanging, hlt, hentry, hbelow⟩ := hheads
      refine ⟨htracks.arrive scene.name hlt, ?_, nofun⟩
      obtain ⟨hcurrent, hentered⟩ := Navigation.atPlace?_enter htracks.limit hentry
      have hsettled : (s.navigation.enter target recorded).Heads frames :=
        Navigation.heads_of_settled (hcurrent.trans hentered.symm) hbelow
      rw [navigation_told, navigation_told]
      exact hsettled

end Session

/-- A change of scene that is asked for gets an entry in the history. -/
def Work.IsRecorded : Work → Prop
  | .goToScene _ recorded => recorded = true
  | _ => True

namespace Machine

open Session

variable {s : Session}

/-- What an action asks for, if it asks for anything, gets an entry in the history. -/
def Plan.IsRecorded : Plan → Prop
  | .ask work _ => work.IsRecorded
  | .done _ => True

/-- Only those who go to another place of the history ask for a scene without a new entry. -/
theorem isRecorded_plan {a : Action} (ha : a.IsStill) (s : Session) :
    Session.Keeps (fun _ _ => True) Plan.IsRecorded (plan a) s := by
  have hR : Composes fun _ _ => True := ⟨fun _ => trivial, fun _ _ => trivial⟩
  have hany {α : Type} (act : Act α) (s : Session) :
      Session.Keeps (fun _ _ => True) (fun _ => True) act s := keeps_of_related trivial
  have hactivate (r : HotspotRef) (reply : Reply) (s : Session) :
      Session.Keeps (fun _ _ => True) Plan.IsRecorded (planActivate r reply) s := by
    refine Session.Keeps.get_bind ?_
    split
    · exact hR.throw _ s
    · exact hR.bind (hany _ s) fun _ s' _ => hR.pure trivial s'
  cases a with
  | goToScene ref =>
      refine Session.Keeps.get_bind (hR.given_bind fun index => ?_)
      have hrecorded : Plan.IsRecorded (.ask (.goToScene index true) .nothing) := rfl
      exact hR.bind (hany _ s) fun _ s' _ => hR.pure hrecorded s'
  | execute commands => exact hR.pure trivial s
  | click p =>
      refine Session.Keeps.get_bind ?_
      split
      · exact hR.pure trivial s
      · exact hactivate _ _ s
  | hover p =>
      refine Session.Keeps.get_bind ?_
      dsimp only
      split
      · exact hR.pure trivial s
      · split
        · refine hR.bind (hany _ s) fun _ s' _ => hR.bind (hany _ s') fun _ s' _ => ?_
          split
          · exact hR.pure trivial s'
          · exact hR.bind (hany _ s') fun _ s' _ => hR.pure (by split <;> trivial) s'
        · refine hR.bind (hany _ s) fun _ s' _ => ?_
          split
          · exact hR.pure trivial s'
          · exact hR.bind (hany _ s') fun _ s' _ => hR.pure (by split <;> trivial) s'
  | hitTest p => exact Session.Keeps.get_bind (hR.pure trivial s)
  | activate r => exact hactivate r _ s
  | back | forward | restore _ => exact ha.elim
  | save => exact Session.Keeps.get_bind (hR.pure trivial s)
  | stopTimer id =>
      exact Session.Keeps.get_bind (hR.bind (hany _ s) fun _ s' _ => hR.pure trivial s')
  | pause | resume | stop | pauseTimers _ | resumeTimers _ =>
      exact hR.bind (hany _ s) fun _ s' _ => hR.pure trivial s'

theorem upkeep_whereabouts (presentation : Presentation) :
    Upkeep Action.IsStill Work.IsRecorded (Whereabouts presentation) where
  free _ _ _ h := ⟨⟨h.same, h.accepts, h.sound, h.limit, h.numbered, h.fresh, h.told⟩,
    h.heads, h.failing⟩
  idle h := ⟨h.toTracks, h.heads, nofun⟩
  list _ h := ⟨h.toTracks, h.heads, nofun⟩
  change {s index recorded target} hrecorded hscene hfree h := by
    obtain ⟨-, hlt, hget⟩ := Navigation.lt_of_scene_eq_ok hscene
    have hindex : target.index = index.toNat := by
      obtain ⟨_, hsame⟩ := List.getElem?_eq_some_iff.mp hget
      rw [← hsame]
      exact h.numbered _ hlt
    refine ⟨⟨h.same, h.accepts, h.sound.of_eq rfl rfl rfl rfl rfl, h.limit, h.numbered,
      h.fresh, h.told⟩, ⟨rfl, hindex ▸ hlt, ?_, ?_⟩, nofun⟩
    · intro hunrecorded
      rw [hrecorded] at hunrecorded
      nomatch hunrecorded
    · intro f hf
      rw [List.mem_singleton.mp hf]
      rfl
  tick id count h := by
    refine ⟨h.toTracks.tell ⟨rfl, rfl⟩, ?_, nofun⟩
    rw [navigation_told]
    exact h.heads
  step := Whereabouts.step
  plan {s frames a} ha h := by
    have hcalmly : Calmly s (plan a s).2 := (attends_calmly.plan ha s).related
    have hsound : (plan a s).2.navigation.Sound := by
      rw [hcalmly.navigation]
      exact h.sound
    refine ⟨h.toTracks.lingers hcalmly.lingers hsound, ?_, nofun⟩
    rw [hcalmly.navigation]
    exact h.heads
  asks {s a work reply} ha hasks := (isRecorded_plan ha s).result _ hasks
  ticks _ := trivial

/-- The scene shown and the history agree. Unless somebody goes to another place of the history or
restores a saved state, and as long as the presentation refuses nothing: whenever nothing runs,
whatever ran before, either no scene was entered yet, or the entry of the history at the place is
the scene shown; and the presentation was called on last to show this scene, and told last that this
scene is entered. -/
theorem whereabouts (p : Project) (hindex : ∀ i (h : i < p.scenes.length), p.scenes[i].index = i)
    (presentation : Presentation) (haccepts : presentation.RefusesNothing) (minInterval : Int)
    (moves : List Move)
    (hmoves : ∀ move ∈ moves, move.Respects Action.IsStill Work.IsRecorded) :
    let m := (ofSession (Session.ofProject p presentation minInterval)).after moves
    let n := m.session.navigation
    m.running = none →
      (n.currentIndex = -1 ∧ n.history = [] ∨
        ∃ place index, n.place = some place ∧ n.history[place]? = some index ∧
          n.current = some index) ∧
      (presentation.records = true → m.session.lastTold LogEntry.shown? = n.current ∧
        m.session.lastTold LogEntry.entered? = n.current) := by
  intro m n hrunning
  have hstart : (Ledger.ofSession (Session.ofProject p presentation minInterval)).Fair :=
    Ledger.fair_ofSession rfl rfl
  have hfresh : Upkept Work.IsRecorded (Whereabouts presentation)
      (ofSession (Session.ofProject p presentation minInterval)) := by
    refine ⟨rfl, nofun, ⟨⟨rfl, haccepts, Navigation.sound_fresh _ _, ?_, hindex, fun _ => rfl, ?_⟩,
      rfl, nofun⟩⟩
    · show 0 < 100
      exact Nat.succ_pos _
    · exact fun _ => ⟨rfl, rfl⟩
  have hupkept : Upkept Work.IsRecorded (Whereabouts presentation) m := by
    have hafter := upkept_after (upkeep_whereabouts presentation) hstart hfresh hmoves
    rwa [Ledger.machine_after hstart] at hafter
  have hholds := hupkept.holds
  rw [left_of_free hrunning] at hholds
  have hentry : n.current = n.place.bind (n.history[·]?) := hholds.heads
  constructor
  · cases hcurrent : n.current with
    | none =>
        refine Or.inl ⟨?_, hholds.fresh hcurrent⟩
        unfold Navigation.currentIndex
        rw [hcurrent]
    | some index =>
        rw [hcurrent] at hentry
        obtain ⟨place, hplace, hget⟩ := Option.bind_eq_some_iff.mp hentry.symm
        exact Or.inr ⟨place, index, hplace, hget, rfl⟩
  · exact hholds.told

/-- Two scenes without links are shown, and then the first one again, as the one before in the
history. -/
theorem whereabouts_back :
    let p : Project := { scenes := [{ index := 0 }, { index := 1 }] }
    let moves : List Move := [.act (.goToScene (.index 0)), .act (.goToScene (.index 1)),
      .act (.execute [{ verb := "PREV" }])]
    let m := (ofSession (Session.ofProject p {} 16)).after moves
    let n := m.session.navigation
    m.running = none ∧ n.history = [0, 1] ∧ n.current = some 0 ∧
      (∃ place index, n.place = some place ∧ n.history[place]? = some index ∧
        n.current = some index) ∧
      m.session.lastTold LogEntry.shown? = some 0 ∧
      m.session.lastTold LogEntry.entered? = some 0 := by
  intro p moves m
  have hindex : ∀ i (h : i < p.scenes.length), p.scenes[i].index = i := by decide
  have hmoves : ∀ move ∈ moves, move.Respects Action.IsStill Work.IsRecorded := by
    simp [moves, Move.Respects, Action.IsStill]
  have hwhere := whereabouts p hindex {} (fun _ _ => rfl) 16 moves hmoves
  have hm : (ofSession (Session.ofProject p {} 16)).after moves = m := rfl
  have hrunning : m.running = none := by
    rw [← Option.isNone_iff_eq_none]
    decide +kernel
  have hhistory : m.session.navigation.history = [0, 1] := by decide +kernel
  have hcurrent : m.session.navigation.current = some 0 := by decide +kernel
  clear_value m
  dsimp only at hwhere
  rw [hm] at hwhere
  obtain ⟨hentry, htold⟩ := hwhere hrunning
  obtain ⟨hshown, hentered⟩ := htold rfl
  refine ⟨hrunning, hhistory, hcurrent, ?_, hshown.trans hcurrent, hentered.trans hcurrent⟩
  rcases hentry with ⟨-, hnone⟩ | hsome
  · rw [hhistory] at hnone
    nomatch hnone
  · exact hsome

end Machine

end PointAndClick
