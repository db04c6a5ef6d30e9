import PointAndClick.Proofs.Play.SceneChange
import PointAndClick.Proofs.Play.Ways
import PointAndClick.Proofs.Play.Whereabouts

/-!
# Ways that are refused

A command that goes to another scene either leaves the scene shown and the history as they are, or
enters a scene as a whole, whatever the presentation refuses meanwhile (`Session.Leaves`). If it
refuses the way, the command stays; if it refuses to show the scene, the scene is entered already,
and nobody takes this back (`Session.refused_navigation`).
-/

set_option autoImplicit false

namespace PointAndClick

/-- The verb is one for going to another scene. -/
def Verb.IsNavigation : Verb → Prop
  | .navigate _ | .goToScene => True
  | _ => False

namespace Session

variable {s s' asked : Session} {frames below : List Frame}

/-! ## Frames on top of others -/

/-- What is on top of some frames is worked off in the end, as long as in the pauses nobody goes to
another place of the history or restores a saved state; then something is true of the session. -/
inductive WorkedOff (below : List Frame) (post : Session → Prop) :
    Session → Flow → List Frame → Prop
  | done {s : Session} {flow : Flow} {frames : List Frame} (hframes : frames <:+ below)
      (h : post s) : WorkedOff below post s flow frames
  | goOn {s s' : Session} {flow flow' : Flow} {frame : Frame} {frames frames' : List Frame}
      (hstep : s.step flow frame frames = (s', .goOn flow' frames'))
      (h : WorkedOff below post s' flow' frames') : WorkedOff below post s flow (frame :: frames)
  | wait {s s' : Session} {flow : Flow} {frame : Frame} {frames frames' : List Frame}
      {duration : Nat} (hstep : s.step flow frame frames = (s', .wait duration frames'))
      (h : ∀ s'', Calmly s' s'' → WorkedOff below post s'' .going frames') :
      WorkedOff below post s flow (frame :: frames)

theorem WorkedOff.imp {post post' : Session → Prop} {flow : Flow}
    (h : WorkedOff below post s flow frames) (himp : ∀ s, post s → post' s) :
    WorkedOff below post' s flow frames := by
  induction h with
  | done hframes h => exact .done hframes (himp _ h)
  | goOn hstep _ ih => exact .goOn hstep ih
  | wait hstep _ ih => exact .wait hstep ih

/-- What each step on top of the frames and each calm pause passes on holds in the end. -/
theorem workedOff_of_steps {I : Session → List Frame → Prop}
    (hstep : ∀ {s s' : Session} {flow : Flow} {frame : Frame} {frames : List Frame} {p : Progress},
      I s (frame :: frames) → ¬frame :: frames <:+ below →
        Steps s flow frame frames (s', p) → I s' p.frames)
    (hcalmly : ∀ {s s' : Session} {frames : List Frame}, I s frames → Calmly s s' → I s' frames)
    {flow : Flow} (h : I s frames) :
    WorkedOff below (fun s' => ∃ frames, frames <:+ below ∧ I s' frames) s flow frames := by
  have hends : Ends (fun _ _ => True) s flow frames :=
    (ends_of_steps (I := fun _ _ _ => True) (fun _ _ _ _ _ p _ _ => by cases p <;> simp) s flow
      frames trivial).imp fun _ _ _ => trivial
  -- the induction is on the run of the whole stack, which is cut off at the frames below
  induction hends with
  | finished _ => exact .done List.nil_suffix ⟨[], List.nil_suffix, h⟩
  | @goOn s s' flow flow' frame frames frames' hnext _ ih =>
      by_cases hframes : frame :: frames <:+ below
      · exact .done hframes ⟨_, hframes, h⟩
      · have hsteps := steps s flow frame frames
        rw [hnext] at hsteps
        exact .goOn hnext (ih (hstep h hframes hsteps))
  | @wait s s' flow frame frames frames' duration hnext _ ih =>
      by_cases hframes : frame :: frames <:+ below
      · exact .done hframes ⟨_, hframes, h⟩
      · have hsteps := steps s flow frame frames
        rw [hnext] at hsteps
        exact .wait hnext fun s'' hpause =>
          ih s'' hpause.toMeanwhile (hcalmly (hstep h hframes hsteps) hpause)

/-! ## A change of scene from beginning to end -/

/-- What was told of scenes in the course of a change that began with a session: as long as the new
scene is not shown, at most that the old one is left. -/
def TellsOf (first : Session) (target : Nat) (arrived : Bool) (told : List LogEntry) : Prop :=
  told <+: first.exitEntries ++ first.entryEntries target ∧
    (arrived = false → told <+: first.exitEntries)

/-- A change of scene that began with a session is under way on top of some frames: the old scene is
still to be left, or the new one to be shown, or only the end is still to come. -/
inductive Underway (first : Session) (target : Nat) (recorded : Bool) (below : List Frame)
    (s : Session) (frames : List Frame) : Prop
  | leaving (hframes : frames = .leaving target recorded :: .transition :: below)
      (h : Since first target recorded [] false s)
  | left (hframes : Above frames (.arriving target recorded :: .transition :: below))
      (h : Since first target recorded first.exitEntries false s)
  | ending {told : List LogEntry} {arrived : Bool} (hframes : Above frames (.transition :: below))
      (htold : TellsOf first target arrived told) (h : Since first target recorded told arrived s)

variable {first : Session} {target : Nat} {recorded : Bool}

/-- A step on a change of scene leaves it under way, or ends it. -/
theorem Underway.step {flow : Flow} {frame : Frame} {p : Progress}
    (h : Underway first target recorded below s (frame :: frames))
    (hsteps : Steps s flow frame frames (s', p)) :
    Underway first target recorded below s' p.frames ∨
      p.frames = below ∧ s' = { s with navigation := s.navigation.endTransition } ∧
        ∃ told arrived, TellsOf first target arrived told ∧
          Since first target recorded told arrived s := by
  cases h with
  | leaving hframes h =>
      obtain ⟨rfl, rfl⟩ := List.cons.inj hframes
      cases flow with
      | going =>
          obtain ⟨hsince, habove⟩ := Instant.phase_leaving h hsteps
          exact Or.inl (.left habove hsince)
      | failing e =>
          cases hsteps with
          | idle hidle =>
              have htold : TellsOf first target false [] :=
                ⟨List.nil_prefix, fun _ => List.nil_prefix⟩
              exact Or.inl (.ending (above_refl _) htold h)
  | left hframes h =>
      by_cases hlast : frame :: frames = .arriving target recorded :: .transition :: below
      · obtain ⟨rfl, rfl⟩ := List.cons.inj hlast
        obtain ⟨arrived, told, hsince, htold, habove, hmissing⟩ := Instant.phase_arriving h hsteps
        have hexit (hnever : arrived = false) : told <+: first.exitEntries :=
          hmissing hnever ▸ List.prefix_refl _
        exact Or.inl (.ending habove ⟨htold, hexit⟩ hsince)
      · obtain ⟨hsince, habove⟩ := Instant.Above.step hframes hlast h hsteps
        exact Or.inl (.left habove hsince)
  | ending hframes htold h =>
      by_cases hlast : frame :: frames = .transition :: below
      · obtain ⟨rfl, rfl⟩ := List.cons.inj hlast
        cases hsteps with
        | idle hidle => cases flow <;> exact hidle.elim
        | transition => exact Or.inr ⟨rfl, rfl, _, _, htold, h⟩
      · obtain ⟨hsince, habove⟩ := Instant.Above.step hframes hlast h hsteps
        exact Or.inl (.ending habove htold hsince)

theorem Underway.length_lt {frame : Frame}
    (h : Underway first target recorded (frame :: below) s frames) :
    below.length < frames.length := by
  cases h with
  | leaving hframes _ =>
      rw [hframes]
      simp only [List.length_cons]
      omega
  | left hframes _ | ending hframes _ _ =>
      obtain ⟨above, rfl, -⟩ := hframes
      simp only [List.length_append, List.length_cons]
      omega

theorem Underway.calmly (h : Underway first target recorded below s frames)
    (hcalmly : Calmly s s') : Underway first target recorded below s' frames := by
  cases h with
  | leaving hframes h => exact .leaving hframes (h.calmly hcalmly)
  | left hframes h => exact .left hframes (h.calmly hcalmly)
  | ending hframes htold h => exact .ending hframes htold (h.calmly hcalmly)

/-! ## What a command leaves -/

/-- The entries told between two sessions call on the presentation to show certain scenes only. -/
def ShowsOnly (s s' : Session) (allowed : Nat → Prop) : Prop :=
  ∃ entries, s'.log.toList = s.log.toList ++ entries ∧
    ∀ e ∈ entries, ∀ index, e.shown? = some index → allowed index

theorem ShowsOnly.trans {s₁ s₂ s₃ : Session} {allowed : Nat → Prop} (h : ShowsOnly s₁ s₂ allowed)
    (h' : ShowsOnly s₂ s₃ allowed) : ShowsOnly s₁ s₃ allowed := by
  obtain ⟨entries, hlog, hallowed⟩ := h
  obtain ⟨entries', hlog', hallowed'⟩ := h'
  refine ⟨entries ++ entries', by rw [hlog', hlog, List.append_assoc], fun e he => ?_⟩
  rcases List.mem_append.mp he with hfirst | hsecond
  · exact hallowed e hfirst
  · exact hallowed' e hsecond

theorem Lingers.showsOnly (h : Lingers s s') (allowed : Nat → Prop) : ShowsOnly s s' allowed := by
  obtain ⟨entries, hlog, hnone⟩ := h.log
  refine ⟨entries, hlog, fun e he index hindex => ?_⟩
  rw [(hnone e he).1] at hindex
  nomatch hindex

/-- Of what a change of scene tells, at most the call for the new scene is one to show a scene. -/
theorem Since.showsOnly {told : List LogEntry} {arrived : Bool} {allowed : Nat → Prop}
    (h : Since first target recorded told arrived s)
    (hrecords : first.presentation.records = true)
    (htold : ∀ e ∈ told, ∀ index, e.shown? = some index → allowed index) :
    ShowsOnly first s allowed := by
  obtain ⟨entries, hlog, hscenic⟩ := h.log
  refine ⟨entries, hlog, fun e he index hindex => htold e ?_ index hindex⟩
  rw [← hscenic hrecords]
  refine List.mem_filter.mpr ⟨he, ?_⟩
  unfold LogEntry.shown? at hindex
  split at hindex
  · rfl
  · nomatch hindex

theorem not_shown_of_mem_exitEntries {e : LogEntry} (h : e ∈ first.exitEntries) :
    e.shown? = none := by
  unfold exitEntries at h
  split at h
  · rw [List.mem_singleton.mp h]
    rfl
  · nomatch h

theorem eq_of_mem_entryEntries {e : LogEntry} {index : Nat}
    (h : e ∈ first.entryEntries target) (hindex : e.shown? = some index) : index = target := by
  unfold entryEntries at h
  split at h
  · rcases List.mem_cons.mp h with rfl | h
    · cases hindex
      rfl
    · rw [List.mem_singleton.mp h] at hindex
      nomatch hindex
  · nomatch h

/-- If a change of scene calls for a scene, it is the new one, which is then shown. -/
theorem TellsOf.shown {told : List LogEntry} {arrived : Bool}
    (h : TellsOf first target arrived told) {e : LogEntry} (he : e ∈ told) {index : Nat}
    (hindex : e.shown? = some index) : arrived = true ∧ index = target := by
  have hexit : e ∉ first.exitEntries := by
    intro hmem
    rw [not_shown_of_mem_exitEntries hmem] at hindex
    nomatch hindex
  obtain ⟨hall, hleft⟩ := h
  cases arrived with
  | false => exact absurd ((hleft rfl).subset he) hexit
  | true =>
      rcases List.mem_append.mp (hall.subset he) with hmem | hmem
      · exact absurd hmem hexit
      · exact ⟨rfl, eq_of_mem_entryEntries hmem hindex⟩

/-- A command for going to another scene sets out for one: the scene is there, the way leads to it,
and the presentation does not refuse the way when it is asked. -/
structure SetsOut (verb : Verb) (s asked : Session) (target : Scene) (recorded : Bool)
    (place : Option Nat) : Prop where
  way : ∃ index, s.navigation.scenes[index]? = some target ∧
    Way verb s.navigation index recorded place
  answer : ∀ d, verb = .navigate d → asked.answer (.call (.navigate d)) = .ok ()

/-- The scene of an index was entered, for which a command for going to another scene set out. -/
def Entered (verb : Verb) (s asked s' : Session) (shown : Nat) : Prop :=
  ∃ target recorded place, SetsOut verb s asked target recorded place ∧ target.index = shown ∧
    s'.navigation.position =
      (Navigation.enter { s.navigation with place } shown recorded).position

/-- What a command for going to another scene leaves. Either the scene shown and the history are as
they were, and so is the place in it but for a way back in the history, and no scene was called for;
or the scene was entered for which the command set out, and no other was called for. -/
inductive Leaves (verb : Verb) (s asked s' : Session) : Prop
  | unmoved (hcurrent : s'.navigation.current = s.navigation.current)
      (hhistory : s'.navigation.history = s.navigation.history)
      (hplace : (verb = .navigate .backward → s.navigation.linkTarget? .backward ≠ none) →
        s'.navigation.place = s.navigation.place)
      (hshows : s.presentation.records = true → ShowsOnly s s' fun _ => False)
  | entered {shown : Nat} (hentered : Entered verb s asked s' shown)
      (hshows : s.presentation.records = true → ShowsOnly s s' fun index => index = shown)

variable {verb : Verb} {i : Instruction}

theorem leaves_refl (verb : Verb) (s asked : Session) : Leaves verb s asked s :=
  .unmoved rfl rfl (fun _ => rfl) fun _ => ⟨[], (List.append_nil _).symm, nofun⟩

/-- What comes after a command leaves the navigation alone. -/
theorem Leaves.lingers (h : Leaves verb s asked s') {s'' : Session}
    (hposition : s''.navigation.position = s'.navigation.position) (hlingers : Lingers s' s'') :
    Leaves verb s asked s'' := by
  cases h with
  | unmoved hcurrent hhistory hplace hshows =>
      obtain ⟨hsame, hsame', hsame''⟩ : s''.navigation.current = s'.navigation.current ∧
          s''.navigation.history = s'.navigation.history ∧
          s''.navigation.place = s'.navigation.place := by
        simpa [Navigation.position] using hposition
      refine .unmoved (hsame.trans hcurrent) (hsame'.trans hhistory) ?_ ?_
      · exact fun hlink => hsame''.trans (hplace hlink)
      · exact fun hrecords => (hshows hrecords).trans (hlingers.showsOnly _)
  | entered hentered hshows =>
      obtain ⟨target, recorded, place, hout, hindex, hentered⟩ := hentered
      refine .entered ⟨target, recorded, place, hout, hindex, hposition.trans hentered⟩ ?_
      exact fun hrecords => (hshows hrecords).trans (hlingers.showsOnly _)

theorem Leaves.told (h : Leaves verb s asked s') {entry : LogEntry}
    (hentry : entry.shown? = none ∧ entry.entered? = none) :
    Leaves verb s asked (s'.told entry) := by
  refine h.lingers ?_ (lingers_told s' hentry)
  rw [navigation_told]

theorem Leaves.calmly (h : Leaves verb s asked s') {s'' : Session} (hcalmly : Calmly s' s'') :
    Leaves verb s asked s'' := by
  refine h.lingers ?_ hcalmly.lingers
  rw [hcalmly.navigation]

/-- A change of scene that is over leaves the scene entered, or all as it was. -/
theorem SetsOut.leaves {target : Scene} {place : Option Nat}
    (h : SetsOut verb s asked target recorded place)
    (hnavigation : first.navigation = { s.navigation with place, transitioning := true })
    (hlingers : Lingers s first) {told : List LogEntry} {arrived : Bool}
    (htold : TellsOf first target.index arrived told)
    (hsince : Since first target.index recorded told arrived s') :
    Leaves verb s asked { s' with navigation := s'.navigation.endTransition } := by
  have hposition := hsince.position
  rw [hnavigation] at hposition
  have hshows {allowed : Nat → Prop}
      (hallowed : ∀ e ∈ told, ∀ shown, e.shown? = some shown → allowed shown)
      (hrecords : s.presentation.records = true) :
      ShowsOnly s { s' with navigation := s'.navigation.endTransition } allowed := by
    have hsame : first.presentation.records = true := by
      rw [hlingers.presentation]
      exact hrecords
    have hshows : ShowsOnly first s' allowed := hsince.showsOnly hsame hallowed
    exact (hlingers.showsOnly allowed).trans hshows
  cases arrived with
  | true =>
      refine .entered ⟨target, recorded, place, h, rfl, ?_⟩ (hshows fun e he shown hshown => ?_)
      · -- that a change is under way makes no difference to where it leads
        rw [if_pos rfl] at hposition
        refine hposition.trans ?_
        cases recorded <;> rfl
      · exact (htold.shown he hshown).2
  | false =>
      obtain ⟨hcurrent, hhistory, hplace⟩ : s'.navigation.current = s.navigation.current ∧
          s'.navigation.history = s.navigation.history ∧ s'.navigation.place = place := by
        simpa [Navigation.position] using hposition
      refine .unmoved hcurrent hhistory ?_ (hshows fun e he shown hshown => ?_)
      · intro hlink
        refine hplace.trans ?_
        obtain ⟨index, -, hway⟩ := h.way
        cases hway with
        | straight _ => rfl
        | back hverb hnone _ => exact absurd hnone (hlink hverb)
      · nomatch (htold.shown he hshown).1

/-! ## A command from beginning to end -/

/-- What is still to do for a command that was begun with a session: a change of scene and then the
end of the command, or only its end. -/
inductive Pending (verb : Verb) (i : Instruction) (below : List Frame) (s asked s' : Session)
    (frames : List Frame) : Prop
  | inside {target : Scene} {recorded : Bool} {place : Option Nat} {first : Session}
      (hout : SetsOut verb s asked target recorded place)
      (hnavigation : first.navigation = { s.navigation with place, transitioning := true })
      (hlingers : Lingers s first)
      (hunder : Underway first target.index recorded (.guarded i :: below) s' frames)
  | behind (hleaves : Leaves verb s asked s') (hframes : frames <:+ .guarded i :: below)

theorem Pending.calmly (h : Pending verb i below s asked s' frames) {s'' : Session}
    (hcalmly : Calmly s' s'') : Pending verb i below s asked s'' frames := by
  cases h with
  | inside hout hnavigation hlingers hunder =>
      exact .inside hout hnavigation hlingers (hunder.calmly hcalmly)
  | behind hleaves hframes => exact .behind (hleaves.calmly hcalmly) hframes

theorem Pending.step {s'' : Session} {flow : Flow} {frame : Frame} {p : Progress}
    (h : Pending verb i below s asked s' (frame :: frames)) (habove : ¬frame :: frames <:+ below)
    (hsteps : Steps s' flow frame frames (s'', p)) : Pending verb i below s asked s'' p.frames := by
  cases h with
  | inside hout hnavigation hlingers hunder =>
      rcases hunder.step hsteps with hunder | ⟨hframes, rfl, told, arrived, htold, hsince⟩
      · exact .inside hout hnavigation hlingers hunder
      · have hleaves := hout.leaves hnavigation hlingers htold hsince
        exact .behind hleaves (hframes ▸ List.suffix_refl _)
  | behind hleaves hframes =>
      rcases List.suffix_cons_iff.mp hframes with heq | hbelow
      · obtain ⟨rfl, rfl⟩ := List.cons.inj heq
        cases hsteps with
        | idle _ => exact .behind hleaves (List.suffix_cons _ _)
        | report => exact .behind (hleaves.told ⟨rfl, rfl⟩) (List.suffix_cons _ _)
      · exact absurd hbelow habove

/-- With nothing on top of the frames below any more, the command is over. -/
theorem Pending.leaves (h : Pending verb i below s asked s' frames) (hframes : frames <:+ below) :
    Leaves verb s asked s' := by
  cases h with
  | behind hleaves _ => exact hleaves
  | inside _ _ _ hunder => exact absurd hframes.length_le (Nat.not_le.mpr hunder.length_lt)

/-- A command for going to another scene does not run another command. -/
theorem perform_ne_nested (hverb : verb.IsNavigation) (i : Instruction) (s : Session)
    (j : Instruction) : (perform verb i s).1 ≠ .ok (.push [.commands [j], .nested]) := by
  have hR : Composes fun _ _ => True := ⟨fun _ => trivial, fun _ _ => trivial⟩
  have hchange (index : Int) (recorded : Bool) (s : Session) :
      Keeps (fun _ _ => True) (fun next => next ≠ .push [.commands [j], .nested])
        (do return nextOfChange (← changeScene index recorded) : Act Next) s := by
    refine ⟨trivial, fun next hnext => ?_⟩
    rw [bind_apply, changeScene_apply] at hnext
    cases hscene : s.navigation.scene index with
    | error e =>
        rw [hscene] at hnext
        nomatch hnext
    | ok target =>
        cases hchanging : s.navigation.transitioning <;>
          (rw [hscene, hchanging] at hnext; cases hnext; nofun)
  have hkeeps : Keeps (fun _ _ => True) (fun next => next ≠ .push [.commands [j], .nested])
      (perform verb i) s := by
    cases verb with
    | navigate d =>
        refine Keeps.get_bind ?_
        split
        · exact hR.pure nofun s
        · refine hR.bind (keeps_of_related trivial) fun found s' _ => ?_
          cases found with
          | none => exact hR.pure nofun s'
          | some _ => exact hR.bind (keeps_of_related trivial) fun _ s' _ => hchange _ _ s'
    | goToScene => exact Keeps.get_bind (hR.given_bind fun index => hchange index true s)
    | _ => exact hverb.elim
  exact fun heq => hkeeps.result _ heq rfl

/-- The first step of a command for going to another scene. -/
theorem pending_perform (hverb : verb.IsNavigation) {outcome : Except Fault Next}
    (hperform : perform verb i s = (outcome, s')) :
    Pending verb i below s s s' (progressOf i below outcome).frames := by
  have hlingers : Lingers s s' := lingers_perform hperform
  have htravels := travels verb i s
  rw [hperform] at htravels
  cases htravels with
  | stays hstays hnext =>
      obtain ⟨disabled, hnavigation⟩ := hstays
      have hleaves : Leaves verb s s s' := by
        refine (leaves_refl verb s s).lingers ?_ hlingers
        rw [hnavigation]
        rfl
      have hperforms := performs verb i s
      rw [hperform] at hperforms
      cases hperforms with
      | fails _ | done _ | waits _ => exact .behind hleaves (List.suffix_refl _)
      | nests _ =>
          have hne := perform_ne_nested hverb i s
          rw [hperform] at hne
          exact absurd rfl (hne _)
      | changes _ _ => exact absurd rfl (hnext _ _)
  | strays hback hlink hnavigation hcause =>
      -- the place has moved, but nothing else
      refine .behind ?_ (List.suffix_refl _)
      refine .unmoved hlingers.current hlingers.history ?_ fun _ => hlingers.showsOnly _
      exact fun hlinked => absurd hlink (hlinked hback)
  | departs hscene hfree hanswer hnavigation hway =>
      refine .inside ⟨⟨_, hscene, hway⟩, hanswer⟩ hnavigation hlingers ?_
      refine .leaving rfl (since_refl ?_ _ _)
      rw [hnavigation]

/-- What was told before a command makes no difference. -/
theorem Leaves.of_told {entry : LogEntry} (hentry : entry.shown? = none ∧ entry.entered? = none)
    (h : Leaves verb (s.told entry) asked s') : Leaves verb s asked s' := by
  have htold (allowed : Nat → Prop) : ShowsOnly s (s.told entry) allowed :=
    (lingers_told s hentry).showsOnly allowed
  cases h with
  | unmoved hcurrent hhistory hplace hshows =>
      rw [navigation_told] at hcurrent hhistory hplace
      rw [presentation_told] at hshows
      exact .unmoved hcurrent hhistory hplace fun hrecords => (htold _).trans (hshows hrecords)
  | entered hentered hshows =>
      obtain ⟨target, recorded, place, ⟨hway, hanswer⟩, hindex, hposition⟩ := hentered
      rw [navigation_told] at hway hposition
      rw [presentation_told] at hshows
      refine .entered ⟨target, recorded, place, ⟨hway, hanswer⟩, hindex, hposition⟩ ?_
      exact fun hrecords => (htold _).trans (hshows hrecords)

/-- The step on a command for going to another scene. -/
theorem pending_command {rest : List Instruction} (hname : Verb.ofName? i.verb = some verb)
    (hverb : verb.IsNavigation) {p : Progress}
    (hsteps : Steps s .going (.commands (i :: rest)) frames (s', p)) :
    Pending verb i (.commands rest :: frames) s (s.told (executed i)) s' p.frames ∨
      Pending verb i (.commands rest :: frames) (s.told (executed i)) (s.told (executed i)) s'
        p.frames := by
  cases hsteps with
  | idle hidle =>
      refine Or.inl (.behind (leaves_refl verb s _) ?_)
      exact (List.suffix_cons _ _).trans (List.suffix_cons _ _)
  | unknown hquit hunknown =>
      rw [hname] at hunknown
      nomatch hunknown
  | refused hquit hname' hanswer =>
      exact Or.inl (.behind ((leaves_refl verb s _).told ⟨rfl, rfl⟩) (List.suffix_cons _ _))
  | command hquit hname' hanswer hperform =>
      rw [hname] at hname'
      cases hname'
      exact Or.inr (pending_perform hverb hperform)

theorem Pending.workedOff (h : Pending verb i below s asked s' frames) (flow : Flow) :
    WorkedOff below (Leaves verb s asked) s' flow frames := by
  have hends : WorkedOff below (fun s'' => ∃ frames, frames <:+ below ∧
      Pending verb i below s asked s'' frames) s' flow frames :=
    workedOff_of_steps Pending.step (fun h hpause => h.calmly hpause) h
  exact hends.imp fun s'' ⟨_, hframes, hpending⟩ => hpending.leaves hframes

/-- Whatever becomes of a command for going to another scene, it leaves all as it was, but maybe for
the place in the history, or the scene entered. -/
theorem workedOff_leaves (rest : List Instruction) (frames : List Frame)
    (hname : Verb.ofName? i.verb = some verb) (hverb : verb.IsNavigation) :
    WorkedOff (.commands rest :: frames) (Leaves verb s (s.told (executed i))) s .going
      (.commands (i :: rest) :: frames) := by
  have hnext {s' : Session} {p : Progress}
      (hp : Steps s .going (.commands (i :: rest)) frames (s', p))
      {s'' : Session} (hpause : s'' = s' ∨ Calmly s' s'') (flow : Flow) :
      WorkedOff (.commands rest :: frames) (Leaves verb s (s.told (executed i))) s'' flow
        p.frames := by
    rcases pending_command hname hverb hp with h | h <;>
      rcases hpause with rfl | hcalmly
    · exact h.workedOff flow
    · exact (h.calmly hcalmly).workedOff flow
    · exact (h.workedOff flow).imp fun _ => Leaves.of_told ⟨rfl, rfl⟩
    · exact ((h.calmly hcalmly).workedOff flow).imp fun _ => Leaves.of_told ⟨rfl, rfl⟩
  have hsteps := steps s .going (.commands (i :: rest)) frames
  rcases hstep : s.step .going (.commands (i :: rest)) frames with ⟨s', p⟩
  rw [hstep] at hsteps
  cases p with
  | goOn flow frames => exact .goOn hstep (hnext hsteps (Or.inl rfl) flow)
  | wait duration frames =>
      exact .wait hstep fun s'' hcalmly => hnext hsteps (Or.inr hcalmly) .going

/-! ## Refusals -/

/-- A scene that was entered is the one shown. -/
theorem Entered.current {shown : Nat} (h : Entered verb s asked s' shown) :
    s'.navigation.current = some shown := by
  obtain ⟨target, recorded, place, -, -, hposition⟩ := h
  have hcurrent : s'.navigation.current =
      (Navigation.enter { s.navigation with place } shown recorded).current :=
    congrArg Prod.fst hposition
  rw [hcurrent]
  cases recorded <;> rfl

/-- A scene that was called for was entered. -/
theorem Leaves.entered_of_mem (h : Leaves verb s asked s')
    (hrecords : s.presentation.records = true)
    {entries : List LogEntry} (hlog : s'.log.toList = s.log.toList ++ entries) {shown : Nat}
    (hmem : .call (.goToScene shown) ∈ entries) : Entered verb s asked s' shown := by
  have hallowed {allowed : Nat → Prop} (hshows : ShowsOnly s s' allowed) : allowed shown := by
    obtain ⟨same, hsame, hall⟩ := hshows
    obtain rfl : same = entries := List.append_cancel_left (hsame.symm.trans hlog)
    exact hall _ hmem shown rfl
  cases h with
  | unmoved _ _ _ hshows => exact (hallowed (hshows hrecords)).elim
  | entered hentered hshows =>
      have hindex := hallowed (hshows hrecords)
      rw [hindex]
      exact hentered

/-- What a refusal does to a command for going to another scene, wherever the command stands. If the
presentation refuses the way, the scene shown and the history stay as they were, and so does the
place in it unless the way is one back in the history. If it refuses to show the scene, this comes
too late: the scene that it was called for is entered already, as if nothing had been refused. -/
theorem refused_navigation (s : Session) (i : Instruction) (rest : List Instruction)
    (frames : List Frame) {verb : Verb} (hname : Verb.ofName? i.verb = some verb)
    (hverb : verb.IsNavigation) :
    let asked := s.told (executed i)
    WorkedOff (.commands rest :: frames)
      (fun s' =>
        (∀ d, verb = .navigate d → asked.answer (.call (.navigate d)) ≠ .ok () →
          s'.navigation.current = s.navigation.current ∧
          s'.navigation.history = s.navigation.history ∧
          ((d = .backward → s.navigation.linkTarget? d ≠ none) →
            s'.navigation.place = s.navigation.place)) ∧
        (s'.navigation.current = s.navigation.current ∧
            s'.navigation.history = s.navigation.history ∨ ∃ shown, Entered verb s asked s' shown) ∧
        (s.presentation.records = true → ∀ entries, s'.log.toList = s.log.toList ++ entries →
          ∀ shown, .call (.goToScene shown) ∈ entries →
            s'.navigation.current = some shown ∧ Entered verb s asked s' shown))
      s .going (.commands (i :: rest) :: frames) := by
  intro asked
  refine (workedOff_leaves rest frames hname hverb).imp fun s' hleaves => ⟨?_, ?_, ?_⟩
  · intro d hd hrefused
    cases hleaves with
    | unmoved hcurrent hhistory hplace _ =>
        refine ⟨hcurrent, hhistory, fun hlink => hplace fun hback => ?_⟩
        obtain rfl : d = .backward := by
          rw [hback] at hd
          cases hd
          rfl
        exact hlink rfl
    | entered hentered _ =>
        obtain ⟨_, _, _, hout, _, _⟩ := hentered
        exact absurd (hout.answer d hd) hrefused
  · cases hleaves with
    | unmoved hcurrent hhistory _ _ => exact Or.inl ⟨hcurrent, hhistory⟩
    | entered hentered _ => exact Or.inr ⟨_, hentered⟩
  · intro hrecords entries hlog shown hmem
    have hentered : Entered verb s asked s' shown := hleaves.entered_of_mem hrecords hlog hmem
    exact ⟨hentered.current, hentered⟩

/-- A session with a project of one scene, which the presentation refuses to show. -/
def unseen : Session :=
  ofProject Machine.oneScene { refusals := [("go_to_scene", "no screen")] } 16

theorem refused_navigation_unseen :
    Verb.ofName? "SCENE" = some .goToScene ∧ Verb.IsNavigation .goToScene ∧
    unseen.answer (.call (.goToScene 0)) ≠ .ok () ∧
    WorkedOff [.commands []]
      (fun s' => ∀ entries, s'.log.toList = entries → ∀ shown,
        .call (.goToScene shown) ∈ entries → s'.navigation.current = some shown)
      unseen .going [.commands [{ verb := "SCENE", args := "1" }]] := by
  have hname : Verb.ofName? "SCENE" = some .goToScene := by decide
  refine ⟨hname, trivial, by decide, ?_⟩
  refine (refused_navigation unseen { verb := "SCENE", args := "1" } [] [] hname trivial).imp ?_
  rintro s' ⟨-, -, hshown⟩ entries hlog shown hmem
  exact (hshown rfl entries hlog shown hmem).1

/-- A session in which two scenes without links were shown, and whose presentation refuses the way
back. -/
def stranded : Session where
  navigation :=
    { scenes := [{ index := 0 }, { index := 1 }], current := some 1, history := [0, 1],
      place := some 1 }
  presentation := { refusals := [("navigate_backward", "no way")] }

/-- A command for going to another scene that makes the call and is refused leaves the scene shown,
the history and the place in it as they were. -/
def IsUndone (c : Call) : Prop :=
  ∀ (s : Session) (i : Instruction) (verb : Verb), Verb.ofName? i.verb = some verb →
    verb.IsNavigation → (s.run .going [.commands [i]]).2.left = [] →
      ∀ place, s.log.size ≤ place → (s.run .going [.commands [i]]).1.log[place]? = some (.call c) →
        s.presentation.refusals place (.call c) ≠ none →
          (s.run .going [.commands [i]]).1.navigation.position = s.navigation.position

/-- Neither a refusal to show the scene nor one of the way back in the history is undone. -/
theorem not_isUndone : ¬IsUndone (.goToScene 0) ∧ ¬IsUndone (.navigate .backward) := by
  constructor
  · intro h
    have hposition := h unseen { verb := "SCENE", args := "1" } .goToScene (by decide) trivial
      (by decide +kernel) 1 (by decide) (by decide +kernel) (by decide)
    exact absurd hposition (by decide +kernel)
  · intro h
    have hposition := h stranded { verb := "PREV", args := "" } (.navigate .backward) (by decide)
      trivial (by decide +kernel) 1 (by decide) (by decide +kernel) (by decide)
    exact absurd hposition (by decide +kernel)

end Session

end PointAndClick
