import PointAndClick.Play.Machine

/-!
# What a step adds to a session

Whatever is done with a session, entries are only added at the end of its log and turns at the end
of those of the present instant, and never a turn that hands on the lock: that is the machine's
part. `Session.Grows` says so, with a predicate for the entries that are added.
-/

set_option autoImplicit false

namespace PointAndClick

/-- An entry that has its place outside the lists that are run: it tells of the pointer or of a
click, or it pauses, resumes or stops media. -/
def LogEntry.IsOutside : LogEntry → Prop
  | .call .pauseMedia | .call .resumeMedia | .call .stopAll => True
  | .event (.hotspotClick ..) | .event (.hotspotEnter ..) | .event (.hotspotExit ..) => True
  | _ => False

namespace Session

/-- One session comes from another by adding entries of some kind and turns that hand on no
lock. -/
structure Grows (allowed : LogEntry → Prop) (s s' : Session) : Prop where
  log : ∃ entries, s'.log.toList = s.log.toList ++ entries ∧ ∀ e ∈ entries, allowed e
  turns : ∃ turns, s'.turns = s.turns ++ turns ∧ Turn.grant ∉ turns

variable {allowed : LogEntry → Prop} {α β : Type} {s : Session}

/-- Other parts of the state are free. -/
theorem grows_of_eq {s s' : Session} (hlog : s'.log = s.log) (hturns : s'.turns = s.turns) :
    Grows allowed s s' where
  log := ⟨[], by rw [hlog, List.append_nil], fun _ he => nomatch he⟩
  turns := ⟨[], by rw [hturns, List.append_nil], List.not_mem_nil⟩

theorem Grows.refl (s : Session) : Grows allowed s s := grows_of_eq rfl rfl

theorem Grows.trans {s₁ s₂ s₃ : Session} (h : Grows allowed s₁ s₂) (h' : Grows allowed s₂ s₃) :
    Grows allowed s₁ s₃ := by
  obtain ⟨entries, hlog, hallowed⟩ := h.log
  obtain ⟨entries', hlog', hallowed'⟩ := h'.log
  obtain ⟨turns, hturns, hgrant⟩ := h.turns
  obtain ⟨turns', hturns', hgrant'⟩ := h'.turns
  refine ⟨⟨entries ++ entries', by rw [hlog', hlog, List.append_assoc], fun e he => ?_⟩,
    ⟨turns ++ turns', by rw [hturns', hturns, List.append_assoc], fun hmem => ?_⟩⟩
  · exact (List.mem_append.mp he).elim (hallowed e) (hallowed' e)
  · exact (List.mem_append.mp hmem).elim hgrant hgrant'

/-- An act that is done with a session lets it grow, whether it fails or not. -/
def GrowsAt (allowed : LogEntry → Prop) (act : Act α) (s : Session) : Prop :=
  Grows allowed s (act s).2

theorem growsAt_pure (a : α) (s : Session) : GrowsAt allowed (pure a) s := Grows.refl s

theorem growsAt_throw (e : Fault) (s : Session) : GrowsAt allowed (throw e : Act α) s :=
  Grows.refl s

theorem GrowsAt.bind {act : Act α} {next : α → Act β} (h : GrowsAt allowed act s)
    (hnext : ∀ a s', GrowsAt allowed (next a) s') : GrowsAt allowed (act >>= next) s := by
  show Grows allowed s ((act >>= next) s).2
  have hbind : (act >>= next) s = match act s with
      | (.ok a, s') => next a s'
      | (.error e, s') => (.error e, s') := by
    show (ExceptT.bindCont next (act s).1) (act s).2 = _
    rcases act s with ⟨_ | a, s'⟩ <;> rfl
  unfold GrowsAt at h
  rw [hbind]
  cases hact : act s with
  | mk outcome s' =>
      rw [hact] at h
      cases outcome with
      -- what was done before the failure is done
      | error e => exact h
      | ok a => exact h.trans (hnext a s')

theorem growsAt_get_bind {next : Session → Act β} (h : GrowsAt allowed (next s) s) :
    GrowsAt allowed (get >>= next) s := h

theorem growsAt_given_bind {r : Except Fault α} {next : α → Act β}
    (h : ∀ a, GrowsAt allowed (next a) s) : GrowsAt allowed (given r >>= next) s := by
  cases r with
  | error e => exact growsAt_throw e s
  | ok a => exact h a

theorem growsAt_modify {f : Session → Session} (h : Grows allowed s (f s)) :
    GrowsAt allowed (modify f) s := h

theorem growsAt_set {s' : Session} (h : Grows allowed s s') : GrowsAt allowed (set s') s := h

/-! ## The presentation -/

theorem growsAt_tell {entry : LogEntry} (h : allowed entry) (s : Session) :
    GrowsAt allowed (tell entry) s := by
  have hpush : Grows allowed s { s with log := s.log.push entry } :=
    ⟨⟨[entry], by rw [Array.toList_push], fun e he => by rwa [List.mem_singleton.mp he]⟩,
      ⟨[], (List.append_nil _).symm, List.not_mem_nil⟩⟩
  refine growsAt_get_bind ?_
  dsimp only
  by_cases hrecords : s.presentation.records = true
  · rw [if_pos hrecords]
    -- the entry is there even if the presentation then fails
    refine GrowsAt.bind (growsAt_set hpush) fun _ s' => ?_
    split
    · exact growsAt_throw _ s'
    · exact growsAt_pure _ s'
  · rw [if_neg hrecords]
    split
    · exact growsAt_throw _ s
    · exact growsAt_pure _ s

theorem growsAt_call {c : Call} (h : allowed (.call c)) (s : Session) :
    GrowsAt allowed (call c) s := growsAt_tell h s

theorem growsAt_emit {e : Event} (h : allowed (.event e)) (s : Session) :
    GrowsAt allowed (emit e) s := growsAt_tell h s

/-! ## Parts of the state -/

theorem growsAt_navigating (f : Navigation → Navigation × Except Fault α) (s : Session) :
    GrowsAt allowed (navigating f) s := by
  refine growsAt_get_bind ?_
  dsimp only
  refine GrowsAt.bind (growsAt_set (grows_of_eq rfl rfl)) fun _ s' => ?_
  cases (f s.navigation).2 with
  | ok a => exact growsAt_pure a s'
  | error e => exact growsAt_throw e s'

/-- Turns of timers hand on no lock. -/
theorem grows_append_turns (turn : Nat → Turn) (hturn : ∀ serial, turn serial ≠ .grant)
    {s' : Session} (serials : List Nat) (hlog : s'.log = s.log)
    (hturns : s'.turns = s.turns ++ serials.map turn) : Grows allowed s s' where
  log := ⟨[], by rw [hlog, List.append_nil], fun _ he => nomatch he⟩
  turns := by
    refine ⟨serials.map turn, hturns, fun hgrant => ?_⟩
    obtain ⟨serial, -, heq⟩ := List.mem_map.mp hgrant
    exact hturn serial heq

theorem growsAt_beginTimers (serials : List Nat) (s : Session) :
    GrowsAt allowed (beginTimers serials) s :=
  growsAt_modify (grows_append_turns .beginTimer (fun _ => nofun) serials rfl rfl)

theorem growsAt_startTimer (id : String) (interval : Int) (commands : List Instruction)
    (s : Session) : GrowsAt allowed (startTimer id interval commands) s := by
  refine growsAt_get_bind ?_
  exact GrowsAt.bind (growsAt_set (grows_of_eq rfl rfl)) fun _ s' => growsAt_beginTimers _ s'

theorem growsAt_stopTimer (id : String) (s : Session) : GrowsAt allowed (stopTimer id) s :=
  growsAt_modify (grows_of_eq rfl rfl)

theorem growsAt_pauseTimers (id : Option String) (s : Session) :
    GrowsAt allowed (pauseTimers id) s := growsAt_modify (grows_of_eq rfl rfl)

theorem growsAt_resumeTimers (id : Option String) (s : Session) :
    GrowsAt allowed (resumeTimers id) s :=
  growsAt_modify (grows_append_turns .tickTimer (fun _ => nofun) (s.timers.resume id).2 rfl rfl)

/-! ## What a user does at once -/

theorem growsAt_pause (s : Session) : GrowsAt LogEntry.IsOutside pause s := by
  refine growsAt_get_bind ?_
  split
  · exact growsAt_pure () s
  · refine GrowsAt.bind (growsAt_modify (grows_of_eq rfl rfl)) fun _ s' => ?_
    exact GrowsAt.bind (growsAt_pauseTimers none s') fun _ s'' => growsAt_call trivial s''

theorem growsAt_resume (s : Session) : GrowsAt LogEntry.IsOutside resume s := by
  refine growsAt_get_bind ?_
  split
  · exact growsAt_pure () s
  · refine GrowsAt.bind (growsAt_modify (grows_of_eq rfl rfl)) fun _ s' => ?_
    exact GrowsAt.bind (growsAt_resumeTimers none s') fun _ s'' => growsAt_call trivial s''

theorem growsAt_stop (s : Session) : GrowsAt LogEntry.IsOutside stop s :=
  GrowsAt.bind (growsAt_modify (grows_of_eq rfl rfl)) fun _ s' => growsAt_call trivial s'

theorem growsAt_throw_bind (e : Fault) (next : α → Act β) (s : Session) :
    GrowsAt allowed (throw e >>= next) s := Grows.refl s

theorem growsAt_restore (state : Json) (s : Session) : GrowsAt allowed (restore state) s := by
  unfold restore
  cases state.savedFields with
  | error e => exact growsAt_throw_bind e _ s
  | ok fields =>
      refine growsAt_get_bind ?_
      cases Variables.ofSaved ((state.field? "variables").getD (.object [])) with
      | mk values outcome =>
          -- the variables before one that is wrong are taken over
          refine GrowsAt.bind (growsAt_set (grows_of_eq rfl rfl)) fun _ s' => ?_
          cases outcome with
          | error e => exact growsAt_throw_bind e _ s'
          | ok _ =>
              refine GrowsAt.bind (growsAt_navigating _ s') fun _ s' => ?_
              refine GrowsAt.bind (growsAt_modify (grows_of_eq rfl rfl)) fun _ s' => ?_
              dsimp only
              split
              · refine growsAt_get_bind ?_
                refine GrowsAt.bind (growsAt_set (grows_of_eq rfl rfl)) fun _ s' => ?_
                refine GrowsAt.bind (growsAt_beginTimers _ s') fun _ s' => ?_
                split
                · exact growsAt_throw _ s'
                · exact growsAt_pure () s'
              · refine GrowsAt.bind (growsAt_modify (grows_of_eq rfl rfl)) fun _ s' => ?_
                split
                · exact growsAt_throw _ s'
                · exact growsAt_pure () s'

/-! ## Commands -/

/-- What a list that is run may tell: anything. -/
def Anything : LogEntry → Prop := fun _ => True

theorem growsAt_nest (text : String) (s : Session) : GrowsAt allowed (nest text) s := by
  refine growsAt_get_bind ?_
  dsimp only
  by_cases hdeep : maxNesting ≤ s.depth
  · rw [if_pos hdeep]
    exact growsAt_throw_bind _ _ s
  · rw [if_neg hdeep]
    refine growsAt_given_bind fun i => ?_
    exact GrowsAt.bind (growsAt_set (grows_of_eq rfl rfl)) fun _ s' => growsAt_pure _ s'

theorem growsAt_changeScene (index : Int) (recorded : Bool) (s : Session) :
    GrowsAt allowed (changeScene index recorded) s := by
  refine growsAt_get_bind (growsAt_given_bind fun target => ?_)
  split
  · exact growsAt_pure _ s
  · exact GrowsAt.bind (growsAt_set (grows_of_eq rfl rfl)) fun _ s' => growsAt_pure _ s'

theorem growsAt_destination (d : Direction) (s : Session) :
    GrowsAt allowed (destination d) s := by
  refine growsAt_get_bind ?_
  split
  · exact growsAt_pure _ s
  · split
    · exact GrowsAt.bind (growsAt_navigating _ s) fun _ s' => growsAt_pure _ s'
    · exact growsAt_pure _ s

theorem growsAt_navigate {d : Direction} (h : allowed (.call (.navigate d))) (s : Session) :
    GrowsAt allowed (navigate d) s := by
  refine growsAt_get_bind ?_
  split
  · exact growsAt_pure _ s
  · refine GrowsAt.bind (growsAt_destination d s) fun found s' => ?_
    split
    · exact growsAt_pure _ s'
    · refine GrowsAt.bind (growsAt_call h s') fun _ s' => ?_
      exact GrowsAt.bind (growsAt_changeScene _ _ s') fun _ s' => growsAt_pure _ s'

theorem growsAt_switchHotspot (word : String) (enabled : Bool) (s : Session) :
    GrowsAt allowed (switchHotspot word enabled) s := by
  unfold switchHotspot
  split
  · exact growsAt_throw _ s
  · refine growsAt_get_bind (growsAt_given_bind fun navigation => ?_)
    exact growsAt_set (grows_of_eq rfl rfl)

theorem growsAt_writeVariable (name : String)
    (write : Variables → Except Fault (Variables × Variables.Write))
    (h : ∀ name value, allowed (.event (.variableChange name value))) (s : Session) :
    GrowsAt allowed (writeVariable name write) s := by
  refine growsAt_get_bind (growsAt_given_bind fun r => ?_)
  exact GrowsAt.bind (growsAt_set (grows_of_eq rfl rfl)) fun _ s' => growsAt_emit (h _ _) s'

theorem growsAt_playMedia (args : String) {kind : Media} {play : MediaArguments → Call}
    (hplay : ∀ m, allowed (.call (play m)))
    (hstart : ∀ path, allowed (.event (.mediaStart kind path))) (s : Session) :
    GrowsAt allowed (playMedia args kind play) s :=
  growsAt_given_bind fun m =>
    GrowsAt.bind (growsAt_call (hplay m) s) fun _ s' => growsAt_emit (hstart m.path) s'

theorem growsAt_stopMedia {kind : Media} {c : Call} (hcall : allowed (.call c))
    (hend : allowed (.event (.mediaEnd kind))) (s : Session) :
    GrowsAt allowed (stopMedia kind c) s :=
  GrowsAt.bind (growsAt_call hcall s) fun _ s' => growsAt_emit hend s'

/-- An act after which a command is done. -/
theorem GrowsAt.done {act : Act α} (h : GrowsAt allowed act s) :
    GrowsAt allowed (do let _ ← act; return Next.done) s :=
  h.bind fun _ s' => growsAt_pure Next.done s'

/-- No command ends the project but the one that is there for it. -/
theorem growsAt_perform (verb : Verb) (i : Instruction) (s : Session)
    (hallowed : ∀ e, (e = .call .quit → verb = .quit) → allowed e) :
    GrowsAt allowed (perform verb i) s := by
  have hother (e : LogEntry) (he : e ≠ .call .quit := by nofun) : allowed e :=
    hallowed e fun hquit => absurd hquit he
  cases verb with
  | quit =>
      refine GrowsAt.bind (growsAt_modify (grows_of_eq rfl rfl)) fun _ s' => ?_
      exact GrowsAt.done (growsAt_call (hallowed _ fun _ => rfl) s')
  | navigate d => exact growsAt_navigate (hother _) s
  | goToScene =>
      refine growsAt_get_bind (growsAt_given_bind fun index => ?_)
      exact GrowsAt.bind (growsAt_changeScene _ _ s) fun _ s' => growsAt_pure _ s'
  | setHotspot =>
      simp only [perform]
      split
      · exact GrowsAt.done (growsAt_switchHotspot _ _ s)
      · split
        · exact growsAt_throw_bind _ _ s
        · exact GrowsAt.done (growsAt_switchHotspot _ _ s)
  | enableHotspot | disableHotspot => exact GrowsAt.done (growsAt_switchHotspot _ _ s)
  | tipText | playText | addText =>
      exact growsAt_get_bind (GrowsAt.done (growsAt_call (hother _) s))
  | playAvi =>
      refine GrowsAt.bind (growsAt_call (hother _) s) fun _ s' => ?_
      exact GrowsAt.done (growsAt_emit (hother _) s')
  | playWav | playMid | playCda =>
      exact GrowsAt.done (growsAt_playMedia _ (fun _ => hother _) (fun _ => hother _) s)
  | playBmp | playHtml | invalidate | setCursor | hideObject | showObject =>
      exact GrowsAt.done (growsAt_call (hother _) s)
  | messageBox | load | save => exact GrowsAt.done (growsAt_emit (hother _) s)
  | closeWav | closeMid | closeAvi | stopAll =>
      exact GrowsAt.done (growsAt_stopMedia (hother _) (hother _) s)
  | pause =>
      simp only [perform]
      split
      · exact growsAt_throw _ s
      · split
        · exact growsAt_throw_bind _ _ s
        · refine GrowsAt.bind (growsAt_call (hother _) s) fun _ s' => ?_
          exact growsAt_get_bind (growsAt_given_bind fun _ => growsAt_pure _ s')
  | execute | explore | runProject | addImage =>
      simp only [perform]
      split
      · exact growsAt_throw_bind _ _ s
      · exact GrowsAt.done (growsAt_call (hother _) s)
  | condition =>
      refine growsAt_given_bind fun condition => growsAt_get_bind ?_
      split
      · exact growsAt_pure _ s
      · split
        · exact growsAt_pure _ s
        · exact growsAt_nest _ s
  | setVariable =>
      refine growsAt_given_bind fun v => ?_
      split
      · exact growsAt_pure _ s
      · exact GrowsAt.done (growsAt_writeVariable _ _ (fun _ _ => hother _) s)
  | incrementVariable | decrementVariable =>
      exact growsAt_given_bind fun _ =>
        GrowsAt.done (growsAt_writeVariable _ _ (fun _ _ => hother _) s)
  | playCommand => exact growsAt_nest _ s
  | chooseFont => exact GrowsAt.done (growsAt_modify (grows_of_eq rfl rfl))
  | nothing => exact growsAt_pure _ s
  | startTimer =>
      refine growsAt_given_bind fun t => growsAt_given_bind fun command => ?_
      refine GrowsAt.bind (growsAt_call (hother _) s) fun _ s' => ?_
      exact GrowsAt.done (growsAt_startTimer _ _ _ s')
  | stopTimer =>
      refine GrowsAt.bind (growsAt_call (hother _) s) fun _ s' => ?_
      exact GrowsAt.done (growsAt_stopTimer _ s')

/-! ## Frames -/

theorem grows_proceed {act : Act Unit} (frames : List Frame) (h : GrowsAt allowed act s) :
    Grows allowed s (s.proceed act frames).1 := by
  unfold GrowsAt at h
  unfold proceed
  split
  · rename_i hact
    rwa [hact] at h
  · rename_i hact
    rwa [hact] at h

theorem grows_runInstruction (i : Instruction) (frames : List Frame) :
    Grows Anything s (s.runInstruction i frames).1 := by
  unfold runInstruction
  split
  · exact Grows.refl s
  · rename_i verb _
    have hemit : GrowsAt Anything (emit (.commandExecute i.verb i.args)) s :=
      growsAt_emit trivial s
    unfold GrowsAt at hemit
    split
    · rename_i hact
      rwa [hact] at hemit
    · rename_i s' hact
      rw [hact] at hemit
      have hperform := growsAt_perform verb i s' fun _ _ => trivial
      unfold GrowsAt at hperform
      split <;> rename_i hact' <;> rw [hact'] at hperform <;> exact hemit.trans hperform

theorem grows_leave (frames : List Frame) : Grows Anything s (s.leave frames).1 := by
  unfold leave
  split
  · exact Grows.refl s
  · exact grows_proceed _ (growsAt_emit trivial s)

theorem grows_arrive (target : Nat) (recorded : Bool) (frames : List Frame) :
    Grows Anything s (s.arrive target recorded frames).1 := by
  unfold arrive
  split
  · exact Grows.refl s
  · rename_i scene _
    dsimp only
    have hshown : Grows Anything s
        { s with navigation := s.navigation.enter target recorded } := grows_of_eq rfl rfl
    generalize { s with navigation := s.navigation.enter target recorded } = shown at hshown ⊢
    have hannounce : GrowsAt Anything (do
        call (.goToScene target)
        emit (.sceneEnter target scene.name)) shown :=
      GrowsAt.bind (growsAt_call trivial shown) fun _ s' => growsAt_emit trivial s'
    unfold GrowsAt at hannounce
    split <;> rename_i hact <;> rw [hact] at hannounce <;> exact hshown.trans hannounce

theorem grows_step (s : Session) (flow : Flow) (frame : Frame) (frames : List Frame) :
    Grows Anything s (s.step flow frame frames).1 := by
  cases flow with
  | going =>
      cases frame with
      | commands list =>
          cases list with
          | nil => exact Grows.refl s
          | cons i rest =>
              simp only [step]
              split
              · exact Grows.refl s
              · exact grows_runInstruction i _
      | guarded i => exact Grows.refl s
      | nested => exact grows_of_eq rfl rfl
      | leaving target recorded => exact grows_leave _
      | arriving target recorded => exact grows_arrive target recorded frames
      | transition => exact grows_of_eq rfl rfl
  | failing e =>
      cases frame with
      | guarded i => exact grows_proceed frames (growsAt_emit trivial s)
      | commands _ | leaving _ _ | arriving _ _ => exact Grows.refl s
      | nested | transition => exact grows_of_eq rfl rfl

/-- A run only adds to the log, and takes no turn away. -/
theorem grows_runFrames (fuel : Nat) (s : Session) (flow : Flow) (frames : List Frame) :
    Grows Anything s (runFrames fuel s flow frames).1 := by
  fun_induction runFrames fuel s flow frames with
  | case1 | case2 | case3 => exact Grows.refl _
  | case4 fuel s flow frame frames s' duration frames' hstep =>
      have h := grows_step s flow frame frames
      rwa [hstep] at h
  | case5 fuel s flow frame frames s' flow' frames' hstep ih =>
      have h := grows_step s flow frame frames
      rw [hstep] at h
      exact h.trans ih

theorem grows_run (flow : Flow) (frames : List Frame) :
    Grows Anything s (s.run flow frames).1 := grows_runFrames _ s flow frames

end Session

/-! ## Actions -/

namespace Machine

open Session

variable {s : Session}

theorem growsAt_planActivate (r : HotspotRef) (reply : Reply) (s : Session) :
    GrowsAt LogEntry.IsOutside (planActivate r reply) s := by
  refine growsAt_get_bind ?_
  split
  · exact growsAt_throw _ s
  · exact GrowsAt.bind (growsAt_emit trivial s) fun _ s' => growsAt_pure _ s'

theorem growsAt_planHover (p : Point) (s : Session) :
    GrowsAt LogEntry.IsOutside (planHover p) s := by
  refine growsAt_get_bind ?_
  dsimp only
  split
  · exact growsAt_pure _ s
  · split
    · refine GrowsAt.bind (growsAt_emit trivial s) fun _ s' => ?_
      refine GrowsAt.bind (growsAt_modify (grows_of_eq rfl rfl)) fun _ s' => ?_
      split
      · exact growsAt_pure _ s'
      · exact GrowsAt.bind (growsAt_emit trivial s') fun _ s' => growsAt_pure _ s'
    · refine GrowsAt.bind (growsAt_modify (grows_of_eq rfl rfl)) fun _ s' => ?_
      split
      · exact growsAt_pure _ s'
      · exact GrowsAt.bind (growsAt_emit trivial s') fun _ s' => growsAt_pure _ s'

theorem growsAt_planHistory (go : Navigation → Navigation × Except Fault (Option Nat))
    (s : Session) : GrowsAt LogEntry.IsOutside (planHistory go) s := by
  refine GrowsAt.bind (growsAt_navigating go s) fun found s' => ?_
  cases found <;> exact growsAt_pure _ s'

/-- What an action does at once is no part of a list. -/
theorem growsAt_plan (a : Action) (s : Session) : GrowsAt LogEntry.IsOutside (plan a) s := by
  cases a with
  | goToScene ref =>
      refine growsAt_get_bind (growsAt_given_bind fun index => ?_)
      exact GrowsAt.bind (growsAt_modify (grows_of_eq rfl rfl)) fun _ s' => growsAt_pure _ s'
  | execute commands => exact growsAt_pure _ s
  | click p =>
      refine growsAt_get_bind ?_
      split
      · exact growsAt_pure _ s
      · exact growsAt_planActivate _ _ s
  | hover p => exact growsAt_planHover p s
  | hitTest p => exact growsAt_get_bind (growsAt_pure _ s)
  | activate r => exact growsAt_planActivate r _ s
  | back | forward => exact growsAt_planHistory _ s
  | pause => exact GrowsAt.bind (growsAt_pause s) fun _ s' => growsAt_pure _ s'
  | resume => exact GrowsAt.bind (growsAt_resume s) fun _ s' => growsAt_pure _ s'
  | stop => exact GrowsAt.bind (growsAt_stop s) fun _ s' => growsAt_pure _ s'
  | save => exact growsAt_get_bind (growsAt_pure _ s)
  | restore state => exact GrowsAt.bind (growsAt_restore state s) fun _ s' => growsAt_pure _ s'
  | pauseTimers id =>
      exact GrowsAt.bind (growsAt_pauseTimers id s) fun _ s' => growsAt_pure _ s'
  | resumeTimers id =>
      exact GrowsAt.bind (growsAt_resumeTimers id s) fun _ s' => growsAt_pure _ s'
  | stopTimer id =>
      refine growsAt_get_bind ?_
      exact GrowsAt.bind (growsAt_stopTimer id s) fun _ s' => growsAt_pure _ s'

end Machine

end PointAndClick
