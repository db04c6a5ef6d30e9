import Mathlib.Data.List.Chain
import PointAndClick.Proofs.Play.Course

/-!
# Changes of scene

A change of scene is under way as long as its end, the frame `Frame.transition`, is still to be
worked off. It goes through phases (`Instant.Phase`): the old scene is left, its commands run, the
new scene is shown, and its commands run. In each phase nothing is told of scenes but what belongs
to the change itself, and nobody moves but it, since whatever would begin another change finds the
navigation in transition.

`Machine.change_of_course` says so of every stretch of a course in which a change is under way.
-/

set_option autoImplicit false

namespace PointAndClick

/-- The entry tells that a scene is left, shown or entered, or that a way is taken. -/
def LogEntry.isScenic : LogEntry → Bool
  | .call (.goToScene _) | .call (.navigate _) => true
  | .event (.sceneEnter ..) | .event (.sceneExit _) => true
  | _ => false

theorem LogEntry.IsOwn.not_isScenic {e : LogEntry} (h : e.IsOwn true) : e.isScenic = false := by
  unfold isScenic
  split
  · exact h.elim
  · nomatch h
  · exact h.elim
  · exact h.elim
  · rfl

theorem LogEntry.IsOutside.not_isScenic {e : LogEntry} (h : e.IsOutside) :
    e.isScenic = false := by
  unfold isScenic
  split
  · exact h.elim
  · exact h.elim
  · exact h.elim
  · exact h.elim
  · rfl

/-- The scene shown, and the history with the place in it. -/
def Navigation.position (n : Navigation) : Option Nat × List Nat × Option Nat :=
  (n.current, n.history, n.place)

/-- The frame is no part of a change of scene. -/
def Frame.IsPlain : Frame → Prop
  | .commands _ | .guarded _ | .nested => True
  | .leaving .. | .arriving .. | .transition => False

namespace Session

/-- What a change of scene tells when the scene shown is left. -/
def exitEntries (s : Session) : List LogEntry :=
  match s.navigation.currentScene? with
  | some scene => [.event (.sceneExit scene.index)]
  | none => []

/-- What a change of scene tells when a scene is entered. -/
def entryEntries (s : Session) (target : Nat) : List LogEntry :=
  match s.navigation.scenes[target]? with
  | some scene => [.call (.goToScene target), .event (.sceneEnter target scene.name)]
  | none => []

/-- A session in the course of a change of scene that began with another: what was told of scenes
since, and whether the new scene is shown. -/
structure Since (first : Session) (target : Nat) (recorded : Bool) (told : List LogEntry)
    (arrived : Bool) (s : Session) : Prop where
  presentation : s.presentation = first.presentation
  scenes : s.navigation.scenes = first.navigation.scenes
  maxHistory : s.navigation.maxHistory = first.navigation.maxHistory
  transitioning : s.navigation.transitioning = true
  position : s.navigation.position =
    if arrived then (first.navigation.enter target recorded).position
    else first.navigation.position
  log : ∃ entries, s.log.toList = first.log.toList ++ entries ∧
    (first.presentation.records = true → entries.filter LogEntry.isScenic = told)

variable {first s s' : Session} {target : Nat} {recorded arrived : Bool} {told : List LogEntry}

theorem since_refl (h : s.navigation.transitioning = true) (target : Nat) (recorded : Bool) :
    Since s target recorded [] false s :=
  ⟨rfl, rfl, rfl, h, rfl, [], (List.append_nil _).symm, fun _ => rfl⟩

/-- Entries that tell nothing of scenes change nothing. -/
theorem Since.quiet {entries : List LogEntry} (h : Since first target recorded told arrived s)
    (hpresentation : s'.presentation = s.presentation)
    (hscenes : s'.navigation.scenes = s.navigation.scenes)
    (hmaxHistory : s'.navigation.maxHistory = s.navigation.maxHistory)
    (htransitioning : s'.navigation.transitioning = s.navigation.transitioning)
    (hposition : s'.navigation.position = s.navigation.position)
    (hlog : s'.log.toList = s.log.toList ++ entries) (hquiet : ∀ e ∈ entries, e.isScenic = false) :
    Since first target recorded told arrived s' := by
  obtain ⟨before, hbefore, htold⟩ := h.log
  refine ⟨hpresentation.trans h.presentation, hscenes.trans h.scenes,
    hmaxHistory.trans h.maxHistory, htransitioning.trans h.transitioning,
    hposition.trans h.position, before ++ entries, ?_, fun hrecords => ?_⟩
  · rw [hlog, hbefore, List.append_assoc]
  · have hnone : entries.filter LogEntry.isScenic = [] :=
      List.filter_eq_nil_iff.mpr fun e he => by rw [hquiet e he]; exact Bool.false_ne_true
    rw [List.filter_append, hnone, List.append_nil, htold hrecords]

theorem Since.serves (h : Since first target recorded told arrived s) (hserves : Serves s s') :
    Since first target recorded told arrived s' := by
  obtain ⟨entries, hlog, hown⟩ := hserves.log
  rw [h.transitioning] at hown
  refine h.quiet hserves.presentation hserves.scenes hserves.maxHistory hserves.transitioning ?_
    hlog fun e he => (hown e he).not_isScenic
  unfold Navigation.position
  rw [hserves.current, hserves.history, hserves.place h.transitioning]

theorem Since.calmly (h : Since first target recorded told arrived s) (hcalmly : Calmly s s') :
    Since first target recorded told arrived s' := by
  obtain ⟨entries, hlog, houtside⟩ := hcalmly.log
  have hnavigation := hcalmly.navigation
  exact h.quiet hcalmly.presentation (by rw [hnavigation]) (by rw [hnavigation])
    (by rw [hnavigation]) (by rw [hnavigation]) hlog fun e he => (houtside e he).not_isScenic

/-- Of what is told, only what tells of scenes counts. -/
theorem Since.tell (h : Since first target recorded told arrived s) (entry : LogEntry) :
    Since first target recorded (told ++ if entry.isScenic then [entry] else []) arrived
      (s.told entry) := by
  obtain ⟨before, hbefore, htold⟩ := h.log
  have hsame : (s.told entry).navigation = s.navigation := by
    unfold Session.told
    split <;> rfl
  refine ⟨(presentation_told entry).trans h.presentation, by rw [hsame]; exact h.scenes,
    by rw [hsame]; exact h.maxHistory, by rw [hsame]; exact h.transitioning,
    by rw [hsame]; exact h.position,
    before ++ if s.presentation.records then [entry] else [], ?_, fun hrecords => ?_⟩
  · rw [toList_log_told, hbefore, List.append_assoc]
  · rw [h.presentation, hrecords, if_pos rfl, List.filter_append, htold hrecords]
    cases hscenic : entry.isScenic <;> simp [hscenic]

theorem Since.tell_quiet (h : Since first target recorded told arrived s) {entry : LogEntry}
    (hquiet : entry.isScenic = false) :
    Since first target recorded told arrived (s.told entry) := by
  have htell := h.tell entry
  rw [hquiet] at htell
  simpa using htell

/-- The new scene is shown. -/
theorem Since.shown (h : Since first target recorded told false s) :
    Since first target recorded told true (s.shown target recorded) := by
  have hposition : (s.navigation.enter target recorded).position =
      (first.navigation.enter target recorded).position := by
    have hsame := h.position
    have hlimit := h.maxHistory
    unfold Navigation.position at hsame ⊢
    unfold Navigation.enter Navigation.record Navigation.keptEntries
    simp only [Bool.false_eq_true, if_false, Prod.mk.injEq] at hsame
    obtain ⟨-, hhistory, hplace⟩ := hsame
    cases recorded <;> simp [hhistory, hplace, hlimit]
  have hkept : (s.navigation.enter target recorded).scenes = s.navigation.scenes ∧
      (s.navigation.enter target recorded).maxHistory = s.navigation.maxHistory ∧
      (s.navigation.enter target recorded).transitioning = s.navigation.transitioning := by
    unfold Navigation.enter Navigation.record
    split <;> exact ⟨rfl, rfl, rfl⟩
  exact ⟨h.presentation, hkept.1.trans h.scenes, hkept.2.1.trans h.maxHistory,
    hkept.2.2.trans h.transitioning, hposition, h.log⟩

theorem Since.exitEntries (h : Since first target recorded told false s) :
    s.exitEntries = first.exitEntries := by
  have hcurrent : s.navigation.current = first.navigation.current := congrArg Prod.fst h.position
  unfold Session.exitEntries Navigation.currentScene?
  rw [hcurrent, h.scenes]

theorem Since.entryEntries (h : Since first target recorded told arrived s) :
    s.entryEntries target = first.entryEntries target := by
  unfold Session.entryEntries
  rw [h.scenes]

/-! ## Steps that are no part of the change -/

/-- What is above some frames on a stack is no part of a change of scene. -/
def Above (frames below : List Frame) : Prop :=
  ∃ above, frames = above ++ below ∧ ∀ f ∈ above, f.IsPlain

theorem above_refl (frames : List Frame) : Above frames frames :=
  ⟨[], rfl, fun _ hf => nomatch hf⟩

theorem Above.cons {frames below : List Frame} (h : Above frames below) {f : Frame}
    (hf : f.IsPlain) : Above (f :: frames) below := by
  obtain ⟨above, rfl, hplain⟩ := h
  refine ⟨f :: above, rfl, fun g hg => ?_⟩
  rcases List.mem_cons.mp hg with rfl | hg
  · exact hf
  · exact hplain g hg

theorem Above.trans {frames middle below : List Frame} (h : Above frames middle)
    (h' : Above middle below) : Above frames below := by
  obtain ⟨above, rfl, hplain⟩ := h
  obtain ⟨above', rfl, hplain'⟩ := h'
  refine ⟨above ++ above', (List.append_assoc _ _ _).symm, fun f hf => ?_⟩
  exact (List.mem_append.mp hf).elim (hplain f) (hplain' f)

/-- A step on a frame that is no part of a change of scene tells nothing of scenes while a change
is under way, and pushes no frame of another. -/
theorem Since.step (h : Since first target recorded told arrived s) {flow : Flow} {frame : Frame}
    {frames : List Frame} {p : Progress} (hframe : frame.IsPlain)
    (hsteps : Steps s flow frame frames (s', p)) :
    Since first target recorded told arrived s' ∧ Above p.frames frames := by
  cases hsteps with
  | idle hidle => exact ⟨h, above_refl frames⟩
  | unknown hquit hverb => exact ⟨h, (above_refl frames).cons trivial⟩
  | refused hquit hverb hanswer => exact ⟨h.tell_quiet rfl, (above_refl frames).cons trivial⟩
  | @command i rest _ verb outcome s' hquit hverb hanswer hperform =>
      have htold : Since first target recorded told arrived (s.told (executed i)) :=
        h.tell_quiet rfl
      have hperforms := performs verb i (s.told (executed i))
      rw [hperform] at hperforms
      have hrest : Above (.commands rest :: frames) frames := (above_refl frames).cons trivial
      have hlist : Above (.guarded i :: .commands rest :: frames) frames := hrest.cons trivial
      cases hperforms with
      | fails hserves | done hserves | waits hserves => exact ⟨htold.serves hserves, hlist⟩
      | @nests j hdepth =>
          have hnested : Above (.nested :: .guarded i :: .commands rest :: frames) frames :=
            hlist.cons trivial
          exact ⟨⟨htold.presentation, htold.scenes, htold.maxHistory, htold.transitioning,
            htold.position, htold.log⟩, hnested.cons (f := .commands [j]) trivial⟩
      | changes hserves hfree =>
          -- the navigation is in transition already
          rw [htold.transitioning] at hfree
          nomatch hfree
  | report => exact ⟨h.tell_quiet rfl, above_refl frames⟩
  | nested =>
      exact ⟨⟨h.presentation, h.scenes, h.maxHistory, h.transitioning, h.position, h.log⟩,
        above_refl frames⟩
  | transition | leaveNone _ | leave _ | hidden _ _ | unannounced _ _ _ | arrive _ _ _ =>
      exact hframe.elim

end Session

namespace Instant

open Session

/-- The phases of a change of scene that began with a session, on top of some frames. -/
inductive Phase (first : Session) (target : Nat) (recorded : Bool) (below : List Frame) :
    Bool → Instant → Prop
  | leaving {s : Session} (h : Since first target recorded [] false s) :
      Phase first target recorded below false
        ⟨s, .going, .leaving target recorded :: .transition :: below⟩
  | left {s : Session} {flow : Flow} {frames : List Frame}
      (hframes : Above frames (.arriving target recorded :: .transition :: below))
      (h : Since first target recorded first.exitEntries false s) :
      Phase first target recorded below false ⟨s, flow, frames⟩
  | arrived {s : Session} {flow : Flow} {frames : List Frame} {told : List LogEntry}
      {arrived : Bool} (hframes : Above frames (.transition :: below))
      (htold : told <+: first.exitEntries ++ first.entryEntries target)
      (h : Since first target recorded told arrived s) :
      Phase first target recorded below arrived ⟨s, flow, frames⟩

variable {first : Session} {target : Nat} {recorded : Bool} {below : List Frame}

/-- The step on which the new scene is shown. If it is not there, nothing is told of it. -/
theorem phase_arriving {s s' : Session} {flow : Flow} {frames : List Frame} {p : Progress}
    (h : Since first target recorded first.exitEntries false s)
    (hsteps : Steps s flow (.arriving target recorded) frames (s', p)) :
    ∃ arrived told, Since first target recorded told arrived s' ∧
      told <+: first.exitEntries ++ first.entryEntries target ∧ Above p.frames frames ∧
      (arrived = false → told = first.exitEntries) := by
  have hentries := h.entryEntries
  unfold Session.entryEntries at hentries
  cases hsteps with
  | idle hidle => exact ⟨false, _, h, List.prefix_append _ _, above_refl _, fun _ => rfl⟩
  | @hidden _ _ _ scene e hscene hanswer =>
      rw [hscene] at hentries
      refine ⟨true, _, h.shown.tell _, ?_, above_refl _, nofun⟩
      unfold Session.entryEntries
      rw [← hentries]
      exact ⟨[.event (.sceneEnter target scene.name)], by simp [LogEntry.isScenic]⟩
  | unannounced hscene hcall hanswer =>
      rw [hscene] at hentries
      refine ⟨true, _, (h.shown.tell _).tell _, ?_, above_refl _, nofun⟩
      unfold Session.entryEntries
      rw [← hentries]
      exact ⟨[], by simp [LogEntry.isScenic]⟩
  | arrive hscene hcall hanswer =>
      rw [hscene] at hentries
      refine ⟨true, _, (h.shown.tell _).tell _, ?_,
        (above_refl _).cons (f := .commands _) trivial, nofun⟩
      unfold Session.entryEntries
      rw [← hentries]
      exact ⟨[], by simp [LogEntry.isScenic]⟩

theorem phase_leaving {s s' : Session} {frames : List Frame} {p : Progress}
    (h : Since first target recorded [] false s)
    (hsteps : Steps s .going (.leaving target recorded) frames (s', p)) :
    Since first target recorded first.exitEntries false s' ∧
      Above p.frames (.arriving target recorded :: frames) := by
  have hentries := h.exitEntries
  unfold Session.exitEntries at hentries
  cases hsteps with
  | idle hidle => exact hidle.elim
  | leaveNone hscene =>
      rw [hscene] at hentries
      unfold Session.exitEntries
      rw [← hentries]
      exact ⟨h, above_refl _⟩
  | @leave _ _ _ scene hscene =>
      rw [hscene] at hentries
      unfold Session.exitEntries
      rw [← hentries]
      exact ⟨h.tell (.event (.sceneExit scene.index)),
        (above_refl _).cons (f := .commands _) trivial⟩

/-- A step on some frames above others, if it is not the last one above them. -/
theorem Above.step {s s' : Session} {flow : Flow} {frame : Frame} {frames middle : List Frame}
    {p : Progress} {told : List LogEntry} {arrived : Bool}
    (habove : Above (frame :: frames) middle) (hne : frame :: frames ≠ middle)
    (h : Since first target recorded told arrived s) (hsteps : Steps s flow frame frames (s', p)) :
    Since first target recorded told arrived s' ∧ Above p.frames middle := by
  obtain ⟨_ | ⟨f, above⟩, heq, hplain⟩ := habove
  · exact absurd heq hne
  · obtain ⟨rfl, rfl⟩ := List.cons.inj heq
    obtain ⟨hsince, hpushed⟩ := h.step (hplain frame List.mem_cons_self) hsteps
    exact ⟨hsince, hpushed.trans ⟨above, rfl, fun g hg => hplain g (List.mem_cons_of_mem _ hg)⟩⟩

theorem Phase.frames_ne {b : Bool} {x : Instant} (h : Phase first target recorded below b x) :
    .transition ∈ x.frames := by
  cases h with
  | leaving _ => exact List.mem_cons_of_mem _ List.mem_cons_self
  | left hframes _ =>
      obtain ⟨above, rfl, -⟩ := hframes
      exact List.mem_append_right _ (List.mem_cons_of_mem _ List.mem_cons_self)
  | arrived hframes _ _ =>
      obtain ⟨above, rfl, -⟩ := hframes
      exact List.mem_append_right _ List.mem_cons_self

/-- A change of scene stays one as long as it is under way, and the new scene stays shown. -/
theorem Phase.step {b : Bool} {s s' : Session} {flow flow' : Flow} {frame : Frame}
    {frames : List Frame} {p : Progress}
    (h : Phase first target recorded below b ⟨s, flow, frame :: frames⟩)
    (hsteps : Steps s flow frame frames (s', p)) (hbelow : .transition ∉ below)
    (hunder : .transition ∈ p.frames) :
    ∃ b', Phase first target recorded below b' ⟨s', flow', p.frames⟩ ∧ (b = true → b' = true) := by
  cases h with
  | leaving h =>
      obtain ⟨hsince, habove⟩ := phase_leaving h hsteps
      exact ⟨false, .left habove hsince, id⟩
  | left hframes h =>
      by_cases hlast : frame :: frames = .arriving target recorded :: .transition :: below
      · obtain ⟨rfl, rfl⟩ := List.cons.inj hlast
        obtain ⟨arrived, told, hsince, htold, habove, -⟩ := phase_arriving h hsteps
        exact ⟨arrived, .arrived habove htold hsince, nofun⟩
      · obtain ⟨hsince, habove⟩ := Above.step hframes hlast h hsteps
        exact ⟨false, .left habove hsince, id⟩
  | arrived hframes htold h =>
      by_cases hlast : frame :: frames = .transition :: below
      · -- with its end the change is over
        obtain ⟨rfl, rfl⟩ := List.cons.inj hlast
        cases hsteps with
        | idle hidle => cases flow <;> exact hidle.elim
        | transition => exact absurd hunder hbelow
      · obtain ⟨hsince, habove⟩ := Above.step hframes hlast h hsteps
        exact ⟨b, .arrived habove htold hsince, id⟩

theorem Phase.calmly {b : Bool} {s s' : Session} {flow : Flow} {frames : List Frame}
    (h : Phase first target recorded below b ⟨s, flow, frames⟩) (hcalmly : s.Calmly s') :
    Phase first target recorded below b ⟨s', flow, frames⟩ := by
  cases h with
  | leaving h => exact .leaving (h.calmly hcalmly)
  | left hframes h => exact .left hframes (h.calmly hcalmly)
  | arrived hframes htold h => exact .arrived hframes htold (h.calmly hcalmly)

theorem Phase.follows {b : Bool} {x y : Instant} (h : Phase first target recorded below b x)
    (hfollows : Follows x y) (hbelow : .transition ∉ below) (hunder : .transition ∈ y.frames) :
    ∃ b', Phase first target recorded below b' y ∧ (b = true → b' = true) := by
  have hsome := h.frames_ne
  cases hfollows with
  | @goOn s s' flow flow' frame frames frames' hstep =>
      have hsteps := steps s flow frame frames
      rw [hstep] at hsteps
      exact h.step hsteps hbelow hunder
  | @wait s s' flow frame frames frames' duration hstep =>
      have hsteps := steps s flow frame frames
      rw [hstep] at hsteps
      exact h.step hsteps hbelow hunder
  | pause hcalmly => exact ⟨b, h.calmly hcalmly, id⟩
  | rest | list | change _ => nomatch hsome

/-! ## Stretches of a course -/

/-- Only a step that begins a change of scene pushes the end of one. -/
theorem begins_of_steps {s s' : Session} {flow : Flow} {frame : Frame} {frames : List Frame}
    {p : Progress} (hsteps : Steps s flow frame frames (s', p))
    (hbefore : .transition ∉ frame :: frames) (hunder : .transition ∈ p.frames) :
    ∃ target recorded below, .transition ∉ below ∧
      p = .goOn .going (.leaving target recorded :: .transition :: below) ∧
      s'.navigation.transitioning = true := by
  have hframes : .transition ∉ frames := fun hmem => hbefore (List.mem_cons_of_mem _ hmem)
  have hcons {f : Frame} {frames : List Frame} (hf : f ≠ .transition)
      (hframes : .transition ∉ frames) : .transition ∉ f :: frames := by
    intro hmem
    rcases List.mem_cons.mp hmem with heq | hmem
    · exact hf heq.symm
    · exact hframes hmem
  cases hsteps with
  | idle hidle | report | nested | hidden _ _ | unannounced _ _ _ => exact absurd hunder hframes
  | unknown _ _ | refused _ _ _ | leaveNone _ | arrive _ _ _ =>
      exact absurd hunder (hcons nofun hframes)
  | leave _ => exact absurd hunder (hcons nofun (hcons nofun hframes))
  | transition => exact absurd List.mem_cons_self hbefore
  | @command i rest _ verb outcome _ hquit hverb hanswer hperform =>
      have hperforms := performs verb i (s.told (executed i))
      rw [hperform] at hperforms
      have hlist : .transition ∉ .guarded i :: .commands rest :: frames :=
        hcons nofun (hcons nofun hframes)
      cases hperforms with
      | fails _ | done _ | waits _ => exact absurd hunder hlist
      | nests _ => exact absurd hunder (hcons nofun (hcons nofun hlist))
      | changes _ _ => exact ⟨_, _, _, hlist, rfl, rfl⟩

/-- A change of scene begins with the frames that it pushes, on top of others that are no end of a
change. -/
theorem phase_of_begin {x y : Instant} (hfollows : Follows x y) (hbefore : .transition ∉ x.frames)
    (hunder : .transition ∈ y.frames) :
    ∃ target recorded below, .transition ∉ below ∧
      y.frames = .leaving target recorded :: .transition :: below ∧
      Phase y.session target recorded below false y := by
  cases hfollows with
  | @goOn s s' flow flow' frame frames frames' hstep =>
      have hsteps := steps s flow frame frames
      rw [hstep] at hsteps
      obtain ⟨target, recorded, below, hbelow, heq, hchanging⟩ :=
        begins_of_steps hsteps hbefore hunder
      cases heq
      exact ⟨target, recorded, below, hbelow, rfl, .leaving (since_refl hchanging _ _)⟩
  | @wait s s' flow frame frames frames' duration hstep =>
      have hsteps := steps s flow frame frames
      rw [hstep] at hsteps
      obtain ⟨target, recorded, below, -, heq, -⟩ := begins_of_steps hsteps hbefore hunder
      nomatch heq
  | pause hcalmly => exact absurd hunder hbefore
  | rest => nomatch hunder
  | list => simp at hunder
  | change hchanging =>
      exact ⟨_, _, [], List.not_mem_nil, rfl, .leaving (since_refl hchanging _ _)⟩

/-- What is true of the instants of a stretch in which one change of scene is under way: it is the
only one, nothing is told of scenes but what it tells itself, in order, and the position is first
the old one and then the one at which the new scene is entered. -/
structure IsChange (first : Instant) (target : Nat) (recorded : Bool) (stretch : List Instant) :
    Prop where
  begins : ∃ below, first.frames = .leaving target recorded :: .transition :: below
  single : ∀ x ∈ stretch, x.frames.count .transition = 1
  told : ∀ x ∈ stretch, first.session.presentation.records = true → ∃ entries,
    x.session.log.toList = first.session.log.toList ++ entries ∧
    entries.filter LogEntry.isScenic <+:
      first.session.exitEntries ++ first.session.entryEntries target
  positions : ∃ before after,
    stretch.map (fun x => x.session.navigation.position) =
      List.replicate before first.session.navigation.position ++
      List.replicate after (first.session.navigation.enter target recorded).position

theorem Phase.single {b : Bool} {x : Instant} (h : Phase first target recorded below b x)
    (hbelow : .transition ∉ below) : x.frames.count .transition = 1 := by
  have hend : (.transition :: below).count .transition = 1 := by
    rw [List.count_cons_self, List.count_eq_zero.mpr hbelow]
  have hcons {f : Frame} (hf : f ≠ .transition) :
      (f :: .transition :: below).count .transition = 1 := by
    rw [List.count_cons_of_ne hf, hend]
  have habove {frames middle : List Frame} (hframes : Above frames middle)
      (hmiddle : middle.count .transition = 1) : frames.count .transition = 1 := by
    obtain ⟨above, rfl, hplain⟩ := hframes
    have hzero : above.count .transition = 0 :=
      List.count_eq_zero.mpr fun hmem => hplain .transition hmem
    rw [List.count_append, hzero, hmiddle]
  cases h with
  | leaving _ => exact hcons nofun
  | left hframes _ => exact habove hframes (hcons nofun)
  | arrived hframes _ _ => exact habove hframes hend

theorem Phase.since {b : Bool} {x : Instant} (h : Phase first target recorded below b x) :
    ∃ told, told <+: first.exitEntries ++ first.entryEntries target ∧
      Since first target recorded told b x.session := by
  cases h with
  | leaving h => exact ⟨_, List.nil_prefix, h⟩
  | left _ h => exact ⟨_, List.prefix_append _ _, h⟩
  | arrived _ htold h => exact ⟨_, htold, h⟩

/-- From an instant at which a change of scene is under way, all instants of the stretch are in a
phase of it, and the new scene stays shown. -/
theorem phases_of_isChain {b : Bool} {x : Instant} {stretch : List Instant}
    (h : Phase first target recorded below b x) (hbelow : .transition ∉ below)
    (hchain : (x :: stretch).IsChain Follows) (hunder : ∀ y ∈ stretch, .transition ∈ y.frames) :
    (∀ y ∈ x :: stretch, ∃ b', Phase first target recorded below b' y) ∧
    ∃ before after, (x :: stretch).map (fun y => y.session.navigation.position) =
      List.replicate before first.navigation.position ++
        List.replicate after (first.navigation.enter target recorded).position ∧
      (b = true → before = 0) := by
  have hposition {b : Bool} {x : Instant} (h : Phase first target recorded below b x) :
      x.session.navigation.position =
        if b then (first.navigation.enter target recorded).position
        else first.navigation.position := by
    obtain ⟨told, -, hsince⟩ := h.since
    exact hsince.position
  induction stretch generalizing x b with
  | nil =>
      refine ⟨fun y hy => ⟨b, List.mem_singleton.mp hy ▸ h⟩, ?_⟩
      cases b with
      | true => exact ⟨0, 1, by rw [List.map_singleton, hposition h]; rfl, fun _ => rfl⟩
      | false => exact ⟨1, 0, by rw [List.map_singleton, hposition h]; rfl, nofun⟩
  | cons y stretch ih =>
      obtain ⟨hfollows, hrest⟩ := List.isChain_cons_cons.mp hchain
      obtain ⟨b', hphase, hstays⟩ := h.follows hfollows hbelow (hunder y List.mem_cons_self)
      obtain ⟨hphases, before, after, hmap, harrived⟩ :=
        ih hphase hrest fun z hz => hunder z (List.mem_cons_of_mem _ hz)
      refine ⟨fun z hz => ?_, ?_⟩
      · rcases List.mem_cons.mp hz with rfl | hz
        · exact ⟨b, h⟩
        · exact hphases z hz
      · rw [List.map_cons, hmap, hposition h]
        cases b with
        | true =>
            have hnone := harrived (hstays rfl)
            subst hnone
            exact ⟨0, after + 1, rfl, fun _ => rfl⟩
        | false => exact ⟨before + 1, after, rfl, nofun⟩

end Instant

namespace Machine

open Instant

/-- Changes of scene neither nest nor overlap. Whatever the scenes' lists contain, and in whatever
order calls, clicks, timers and pauses follow one another, every stretch of the course of a project
in which a change of scene is under way belongs to one change only, unless somebody goes to another
place of the history or restores a saved state meanwhile. -/
theorem change_of_course (p : Project) (presentation : Presentation) (minInterval : Int)
    (moves : List Move)
    (hstill : (ofSession (Session.ofProject p presentation minInterval)).IsStill moves)
    (before stretch after : List Instant) (x first : Instant)
    (hcourse : (ofSession (Session.ofProject p presentation minInterval)).course moves =
      before ++ x :: (first :: stretch) ++ after)
    (hbefore : .transition ∉ x.frames) (hunder : ∀ y ∈ first :: stretch, .transition ∈ y.frames) :
    ∃ target recorded, IsChange first target recorded (first :: stretch) := by
  have hfair : (Ledger.ofSession (Session.ofProject p presentation minInterval)).Fair :=
    Ledger.fair_ofSession rfl rfl
  have hchain : (before ++ x :: (first :: stretch) ++ after).IsChain Follows :=
    hcourse ▸ isChain_course hfair hstill
  have hstretch : (x :: first :: stretch).IsChain Follows :=
    hchain.left_of_append.right_of_append
  obtain ⟨hfollows, hrest⟩ := List.isChain_cons_cons.mp hstretch
  obtain ⟨target, recorded, below, hbelow, hframes, hphase⟩ :=
    phase_of_begin hfollows hbefore (hunder first List.mem_cons_self)
  obtain ⟨hphases, j, k, hpositions, -⟩ := phases_of_isChain hphase hbelow hrest
    fun y hy => hunder y (List.mem_cons_of_mem _ hy)
  refine ⟨target, recorded, ⟨below, hframes⟩, fun y hy => ?_, fun y hy hrecords => ?_,
    j, k, hpositions⟩
  · obtain ⟨b, hb⟩ := hphases y hy
    exact hb.single hbelow
  · obtain ⟨b, hb⟩ := hphases y hy
    obtain ⟨told, hprefix, hsince⟩ := hb.since
    obtain ⟨entries, hlog, htold⟩ := hsince.log
    exact ⟨entries, hlog, by rw [htold hrecords]; exact hprefix⟩

/-- A project with a single scene. -/
def oneScene : Project := { scenes := [{ index := 0 }] }

/-- Two scenes. Where the first is left and where the second is entered, the lists pause and ask for
further changes of scene, in commands of their own and in commands inside others. -/
def foyer : Project where
  scenes := [
    { index := 0
      links := { forward := some 1 }
      onExit := [⟨.simple 16 "20", 0⟩, ⟨.simple 6 "1", 0⟩, ⟨.simple 35 "NEXT", 0⟩] },
    { index := 1
      links := { backward := some 0 }
      onEnter := [⟨.simple 3 "", 0⟩, ⟨.simple 16 "20", 0⟩, ⟨.simple 35 "SCENE 1", 0⟩] }]

/-- The first scene is left for the second one. In both pauses of this change, another one is asked
for. -/
def visit : List Move :=
  [.act (.goToScene (.index 0)), .act (.execute [⟨"NEXT", ""⟩]), .act (.execute [⟨"SCENE", "1"⟩]),
    .turn .resume, .act (.goToScene (.index 0)), .turn .resume, .turn .grant, .turn .grant]

/-- What is told in the course of the change to the second scene. -/
def visited : List LogEntry :=
  [.event (.sceneExit 0), .event (.commandExecute "PAUSE" "20"), .call (.pause 20),
    .event (.commandExecute "SCENE" "1"), .event (.commandExecute "PLAYCMD" "NEXT"),
    .event (.commandExecute "NEXT" ""), .call (.goToScene 1), .event (.sceneEnter 1 ""),
    .event (.commandExecute "PREV" ""), .event (.commandExecute "PAUSE" "20"), .call (.pause 20),
    .event (.commandExecute "PLAYCMD" "SCENE 1"), .event (.commandExecute "SCENE" "1")]

theorem change_of_course_foyer :
    let m := ofSession (Session.ofProject foyer {} 16)
    m.IsStill visit ∧ (m.after (visit.take 3)).queue.length = 1 ∧
    (m.after (visit.take 5)).queue.length = 2 ∧
    ∃ before x first stretch after,
      m.course visit = before ++ x :: (first :: stretch) ++ after ∧
      .transition ∉ x.frames ∧ (∀ y ∈ first :: stretch, .transition ∈ y.frames) ∧
      (stretch.getLast?.map fun y => y.session.log.toList.drop first.session.log.size) =
        some visited ∧
      ∃ target recorded, IsChange first target recorded (first :: stretch) := by
  intro m
  have hstill : m.IsStill visit :=
    ⟨fun _ => trivial, fun _ => trivial, fun _ => trivial, fun _ => trivial, fun _ => trivial,
      fun _ => trivial, fun _ => trivial, fun _ => trivial, trivial⟩
  have hlength : 8 < (m.course visit).length := by decide +kernel
  have hcourse : m.course visit = (m.course visit).take 7 ++ (m.course visit).getD 7 m.instant ::
      ((m.course visit).getD 8 m.instant :: ((m.course visit).drop 9).take 30) ++
        (m.course visit).drop 39 := by
    have hget {i : Nat} (h : i < (m.course visit).length) :
        (m.course visit).getD i m.instant = (m.course visit)[i] := by
      rw [List.getD_eq_getElem?_getD, List.getElem?_eq_getElem h, Option.getD_some]
    rw [hget hlength, hget (Nat.lt_of_succ_lt hlength), List.append_assoc, List.cons_append,
      List.cons_append, ← List.drop_drop (i := 30) (j := 9), List.take_append_drop,
      ← List.drop_eq_getElem_cons, ← List.drop_eq_getElem_cons,
      List.take_append_drop]
  have hbefore : .transition ∉ ((m.course visit).getD 7 m.instant).frames := by decide +kernel
  have hunder : ∀ y ∈ (m.course visit).getD 8 m.instant :: ((m.course visit).drop 9).take 30,
      .transition ∈ y.frames := by decide +kernel
  refine ⟨hstill, by decide +kernel, by decide +kernel, _, _, _, _, _, hcourse, hbefore, hunder,
    by decide +kernel, ?_⟩
  exact change_of_course foyer {} 16 visit hstill _ _ _ _ _ hcourse hbefore hunder

end Machine

end PointAndClick
