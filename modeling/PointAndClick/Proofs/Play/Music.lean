import PointAndClick.Proofs.Decoding.Project
import PointAndClick.Proofs.Encoding.SceneStream
import PointAndClick.Proofs.Play.Restored
import PointAndClick.Proofs.Play.Whereabouts
import PointAndClick.Proofs.Text.Blank

/-!
# The sound of a scene

The path of a scene's sound is kept in a command that plays it, and read again from the arguments of
this command. Where commands begin with a sound, it is played as soon as their scene is entered
(`LogEntry.InTune`), whatever else goes on. So the sound of a scene in a stream is always played,
by the first word of its path (`Machine.sound_of_scene`), which is the path itself only if there is
no blank in it (`Machine.not_forall_sound_of_scene`).
-/

set_option autoImplicit false

namespace PointAndClick

/-! ## Paths as arguments -/

namespace MediaArguments

variable {text : String}

/-- Of arguments that are not blank the first word is the path. -/
theorem parse_eq_ok (h : ∃ c ∈ text.toList, Text.isBlank c = false) :
    ∃ media, parse text = .ok media ∧ (Text.words text).head? = some media.path := by
  obtain ⟨w, ws, hwords⟩ := List.exists_cons_of_ne_nil (Text.wordsOf_ne_nil h)
  unfold parse Text.words
  rw [hwords]
  rcases ws with _ | ⟨_, _ | ⟨_, _⟩⟩
  · exact ⟨_, rfl, rfl⟩
  · exact ⟨_, rfl, rfl⟩
  · exact ⟨_, rfl, rfl⟩

/-- There is no blank in the path. -/
theorem isBlank_of_mem_path {path : String} (h : (Text.words text).head? = some path) :
    ∀ c ∈ path.toList, Text.isBlank c = false := by
  obtain ⟨w, hw, rfl⟩ := List.mem_map.mp (List.mem_of_mem_head? h)
  rw [String.toList_ofList]
  exact Text.isBlank_of_mem_wordsOf hw

/-- Arguments without a blank are no more than a path. -/
theorem parse_of_plain (hne : text ≠ "") (h : ∀ c ∈ text.toList, Text.isBlank c = false) :
    parse text = .ok { path := text } := by
  have hone : Text.words text = [text] := by
    unfold Text.words
    rw [Text.wordsOf_eq_singleton (by simpa using hne) h]
    simp
  unfold parse
  rw [hone]

end MediaArguments

/-! ## Scenes that open with a sound -/

/-- The commands that run when the scene is entered begin with one that plays a sound. -/
structure Scene.OpensWith (scene : Scene) (args : String) (media : MediaArguments) : Prop where
  commands : ∃ rest,
    scene.autoCommands.filterMap Instruction.ofRecord? = ⟨"PLAYWAV", args⟩ :: rest
  media : MediaArguments.parse args = .ok media

variable {scene : Scene} {args : String} {media : MediaArguments}

/-- There is one sound that a scene opens with. -/
theorem Scene.OpensWith.unique {args' : String} {media' : MediaArguments}
    (h : scene.OpensWith args media) (h' : scene.OpensWith args' media') :
    args' = args ∧ media' = media := by
  obtain ⟨rest, hcommands⟩ := h.commands
  obtain ⟨rest', hcommands'⟩ := h'.commands
  rw [hcommands] at hcommands'
  cases hcommands'
  have hmedia := h'.media
  rw [h.media] at hmedia
  exact ⟨rfl, (Except.ok.inj hmedia).symm⟩

namespace LogEntry

/-- What is told when a scene is entered that opens with a sound, once it is shown. -/
def opening (index : Nat) (scene : Scene) (args : String) (media : MediaArguments) :
    List LogEntry :=
  [.event (.sceneEnter index scene.name), .event (.commandExecute "PLAYWAV" args),
    .call (.playWave media.path media.loop media.volume)]

/-- As long as nothing ended the project, the sound that a scene opens with is played as soon as the
scene is shown. -/
def InTune (scenes : List Scene) (log : List LogEntry) : Prop :=
  ∀ before index after, log = before ++ .call (.goToScene index) :: after →
    .call .quit ∉ before → ∀ scene args media, scenes[index]? = some scene →
      scene.OpensWith args media → opening index scene args media <+: after

variable {scenes : List Scene} {log log' : List LogEntry}

theorem inTune_of_not_shown (h : ∀ e ∈ log, e.shown? = none) : InTune scenes log := by
  rintro before index after rfl
  nomatch h (.call (.goToScene index)) (by simp)

theorem InTune.append (h : InTune scenes log) (h' : .call .quit ∈ log ∨ InTune scenes log') :
    InTune scenes (log ++ log') := by
  intro before index after hlog hquit scene args media hscene hopens
  rcases List.append_eq_append_iff.mp hlog with ⟨middle, rfl, hlater⟩ | ⟨middle, hfirst, hlater⟩
  · -- the scene is shown in the second part
    rcases h' with hover | h'
    · exact absurd (List.mem_append_left middle hover) hquit
    · refine h' middle index after hlater (fun hmem => hquit ?_) scene args media hscene hopens
      exact List.mem_append_right log hmem
  · cases middle with
    | nil =>
        rw [List.append_nil] at hfirst
        subst hfirst
        rcases h' with hover | h'
        · exact absurd hover hquit
        · exact h' [] index after hlater.symm List.not_mem_nil scene args media hscene hopens
    | cons e middle =>
        obtain ⟨rfl, rfl⟩ := List.cons.inj hlater
        have hplayed := h before index middle hfirst hquit scene args media hscene hopens
        exact hplayed.trans (List.prefix_append middle log')

/-- A scene is shown, and what comes next begins with the sound that it opens with. -/
theorem inTune_cons {index : Nat} (hscene : scenes[index]? = some scene)
    (hlog : ∀ e ∈ log, e.shown? = none)
    (hopens : ∀ args media, scene.OpensWith args media → opening index scene args media <+: log) :
    InTune scenes (.call (.goToScene index) :: log) := by
  intro before index' after heq hquit scene' args media hscene' hopens'
  cases before with
  | nil =>
      cases heq
      rw [hscene] at hscene'
      cases hscene'
      exact hopens args media hopens'
  | cons e before =>
      -- no other scene is shown
      have hmem : .call (.goToScene index') ∈ log := by
        rw [(List.cons.inj heq).2]
        simp
      nomatch hlog _ hmem

end LogEntry

/-- The presentation keeps a log and refuses nothing. -/
structure Presentation.IsWilling (p : Presentation) : Prop where
  records : p.records = true
  accepts : p.RefusesNothing

namespace Session

variable {s s' : Session}

theorem answer_of_isWilling (h : s.presentation.IsWilling) (entry : LogEntry) :
    s.answer entry = .ok () :=
  answer_of_accepted (h.accepts _ entry)

theorem isWilling_told (h : s.presentation.IsWilling) (entry : LogEntry) :
    (s.told entry).presentation.IsWilling := by
  rwa [presentation_told]

theorem log_told_of_isWilling (h : s.presentation.IsWilling) (entry : LogEntry) :
    (s.told entry).log.toList = s.log.toList ++ [entry] := by
  rw [toList_log_told, if_pos h.records]

/-! ## Lists -/

/-- What is told between two sessions is in tune, and if the project ended, this was told. -/
structure Tunes (s s' : Session) : Prop extends Shares s s' where
  log : s.presentation.IsWilling → ∃ entries, s'.log.toList = s.log.toList ++ entries ∧
    (s'.quit = true → s.quit = true ∨ .call .quit ∈ entries) ∧
    (s.quit = false → LogEntry.InTune s.navigation.scenes entries)

/-- Where no scene is shown and the project does not end, anything may be told. -/
theorem tunes_of_log (hshares : Shares s s') (hquit : s'.quit = s.quit)
    (hlog : ∃ entries, s'.log.toList = s.log.toList ++ entries ∧ ∀ e ∈ entries, e.shown? = none) :
    Tunes s s' := by
  obtain ⟨entries, hlog, hnone⟩ := hlog
  refine ⟨hshares, fun _ => ⟨entries, hlog, fun hover => ?_, fun _ => ?_⟩⟩
  · exact Or.inl (hquit ▸ hover)
  · exact LogEntry.inTune_of_not_shown hnone

theorem tunes_of_eq (hshares : Shares s s') (hquit : s'.quit = s.quit) (hlog : s'.log = s.log) :
    Tunes s s' :=
  tunes_of_log hshares hquit ⟨[], by rw [hlog, List.append_nil], nofun⟩

theorem tunes_told (s : Session) {entry : LogEntry} (h : entry.shown? = none) :
    Tunes s (s.told entry) := by
  refine tunes_of_log (roams_told s entry).toShares (quit_told entry) ⟨_, toList_log_told s entry, ?_⟩
  intro e he
  split at he
  · rw [List.mem_singleton.mp he]
    exact h
  · nomatch he

theorem composes_tunes : Composes Tunes where
  refl _ := tunes_of_eq ⟨rfl, rfl, rfl⟩ rfl rfl
  trans {s₁ s₂ s₃} h h' := by
    refine ⟨composes_shares.trans h.toShares h'.toShares, fun hwilling => ?_⟩
    obtain ⟨entries, hlog, hover, htune⟩ := h.log hwilling
    obtain ⟨entries', hlog', hover', htune'⟩ := h'.log (h.presentation ▸ hwilling)
    refine ⟨entries ++ entries', by rw [hlog', hlog, List.append_assoc], fun hquit => ?_,
      fun hgoing => (htune hgoing).append ?_⟩
    · rcases hover' hquit with hbetween | hlater
      · exact (hover hbetween).imp id (List.mem_append_left entries')
      · exact Or.inr (List.mem_append_right entries hlater)
    · by_cases hbetween : s₂.quit = true
      · -- what is told after the end may be out of tune, but the end was told before
        rcases hover hbetween with hfirst | hfirst
        · rw [hgoing] at hfirst
          nomatch hfirst
        · exact Or.inl hfirst
      · rw [Bool.not_eq_true] at hbetween
        rw [h.scenes] at htune'
        exact Or.inr (htune' hbetween)

theorem allows_tunes : Allows Tunes where
  toComposes := composes_tunes
  told s _ h _ := tunes_told s (h.isOwn true).not_shown.1
  write := composes_tunes.write (fun _ _ => tunes_of_eq ⟨rfl, rfl, rfl⟩ rfl rfl)
    fun s _ _ => tunes_told s rfl
  font _ _ := tunes_of_eq ⟨rfl, rfl, rfl⟩ rfl rfl
  disabled _ _ := tunes_of_eq ⟨rfl, rfl, rfl⟩ rfl rfl
  startTimer _ _ _ _ := tunes_of_eq ⟨rfl, rfl, rfl⟩ rfl rfl
  stopTimer _ _ := tunes_of_eq ⟨rfl, rfl, rfl⟩ rfl rfl

theorem handles_tunes : Handles Tunes where
  toAllows := allows_tunes
  depth _ _ := tunes_of_eq ⟨rfl, rfl, rfl⟩ rfl rfl
  begins _ := tunes_of_eq ⟨rfl, rfl, rfl⟩ rfl rfl
  navigate := composes_tunes.navigate (fun _ => tunes_of_eq ⟨rfl, rfl, rfl⟩ rfl rfl)
    (fun _ _ => tunes_of_eq ⟨rfl, rfl, rfl⟩ rfl rfl) fun s _ => tunes_told s rfl

/-- No command shows a scene, and the one that ends the project tells so. -/
theorem tunes_perform (verb : Verb) (i : Instruction) (s : Session) :
    Tunes s (perform verb i s).2 := by
  by_cases hquit : verb = .quit
  · subst hquit
    rw [perform_quit]
    refine ⟨⟨presentation_told _, by rw [navigation_told], by rw [navigation_told]⟩,
      fun hwilling => ⟨[.call .quit], ?_, fun _ => ?_, fun _ => ?_⟩⟩
    · exact log_told_of_isWilling (s := { s with quit := true }) hwilling _
    · exact Or.inr List.mem_cons_self
    · exact LogEntry.inTune_of_not_shown (by simp [LogEntry.shown?])
  · exact handles_tunes.perform hquit i s

/-- The session once a command that plays a sound was executed. -/
def played (s : Session) (args : String) (media : MediaArguments) : Session :=
  ((s.told (executed ⟨"PLAYWAV", args⟩)).told
    (.call (.playWave media.path media.loop media.volume))).told
      (.event (.mediaStart .wave media.path))

theorem quit_played (s : Session) (args : String) (media : MediaArguments) :
    (s.played args media).quit = s.quit := by
  unfold played
  rw [quit_told, quit_told, quit_told]

theorem shares_played (s : Session) (args : String) (media : MediaArguments) :
    Shares s (s.played args media) := by
  have hplayed : Roams s (s.played args media) :=
    composes_roams.trans (composes_roams.trans (roams_told _ _) (roams_told _ _)) (roams_told _ _)
  exact hplayed.toShares

theorem log_played (hwilling : s.presentation.IsWilling) (args : String)
    (media : MediaArguments) : (s.played args media).log.toList =
      s.log.toList ++ [executed ⟨"PLAYWAV", args⟩,
        .call (.playWave media.path media.loop media.volume),
        .event (.mediaStart .wave media.path)] := by
  have hfirst := isWilling_told hwilling (executed ⟨"PLAYWAV", args⟩)
  have hsecond := isWilling_told hfirst (.call (.playWave media.path media.loop media.volume))
  unfold played
  rw [log_told_of_isWilling hsecond, log_told_of_isWilling hfirst, log_told_of_isWilling hwilling]
  simp

theorem perform_playWav (hwilling : s.presentation.IsWilling)
    (hmedia : MediaArguments.parse args = .ok media) :
    (perform .playWav ⟨"PLAYWAV", args⟩ (s.told (executed ⟨"PLAYWAV", args⟩))).2 =
      s.played args media := by
  simp only [perform]
  rw [bind_apply]
  unfold playMedia
  rw [bind_apply, given_apply, hmedia]
  dsimp only
  rw [bind_apply, call, tell_apply, answer_of_isWilling (isWilling_told hwilling _)]
  dsimp only
  rw [emit, tell_apply, answer_of_isWilling (isWilling_told (isWilling_told hwilling _) _)]
  rfl

/-- The sound that a list begins with is played by the next step. -/
theorem step_playWav {rest : List Instruction} {frames : List Frame} (hquit : s.quit = false)
    (hwilling : s.presentation.IsWilling) (hmedia : MediaArguments.parse args = .ok media) :
    (s.step .going (.commands (⟨"PLAYWAV", args⟩ :: rest)) frames).1 = s.played args media := by
  have hsteps := steps s .going (.commands (⟨"PLAYWAV", args⟩ :: rest)) frames
  generalize s.step .going (.commands (⟨"PLAYWAV", args⟩ :: rest)) frames = out at hsteps ⊢
  cases hsteps with
  | idle hidle =>
      have hover : s.quit = true := hidle
      rw [hquit] at hover
      nomatch hover
  | unknown _ hverb => nomatch hverb
  | refused _ _ hanswer =>
      rw [answer_of_isWilling hwilling] at hanswer
      nomatch hanswer
  | @command _ _ _ verb outcome s' _ hverb _ hperform =>
      have hplay : verb = .playWav := (Option.some.inj hverb).symm
      subst hplay
      rw [← perform_playWav hwilling hmedia, hperform]

/-- The session once a scene is shown and this is told of. -/
def entered (s : Session) (index : Nat) (recorded : Bool) (scene : Scene) : Session :=
  ((s.shown index recorded).told (.call (.goToScene index))).told
    (.event (.sceneEnter index scene.name))

theorem shares_entered {index : Nat} (hscene : s.navigation.scenes[index]? = some scene)
    (recorded : Bool) : Shares s (s.entered index recorded scene) :=
  (composes_roams.trans (roams_shown hscene recorded) (roams_told _ _)).toShares

theorem log_entered (hwilling : s.presentation.IsWilling) (index : Nat) (recorded : Bool)
    (scene : Scene) : (s.entered index recorded scene).log.toList =
      s.log.toList ++ [.call (.goToScene index), .event (.sceneEnter index scene.name)] := by
  have hshown : (s.shown index recorded).presentation.IsWilling := hwilling
  unfold entered
  rw [log_told_of_isWilling (isWilling_told hshown _), log_told_of_isWilling hshown,
    List.append_assoc]
  rfl

theorem quit_entered (index : Nat) (recorded : Bool) (scene : Scene) :
    (s.entered index recorded scene).quit = s.quit := by
  unfold entered
  rw [quit_told, quit_told]
  rfl

/-- No step but the one that shows a scene is ever out of tune. -/
theorem tunes_steps {flow : Flow} {frame : Frame} {frames : List Frame} {out : Session × Progress}
    (h : Steps s flow frame frames out) :
    Tunes s out.1 ∨ ∃ index recorded scene, s.navigation.scenes[index]? = some scene ∧
      out = (s.entered index recorded scene,
        .goOn .going (.commands (scene.autoCommands.filterMap Instruction.ofRecord?) :: frames)) := by
  have hrefused {s₁ s' : Session} (hsame : s₁.presentation = s.presentation)
      (hshares : Shares s s') {entry : LogEntry} {e : Fault}
      (hanswer : s₁.answer entry = .error e) : Tunes s s' := by
    refine ⟨hshares, fun hwilling => ?_⟩
    rw [answer_of_isWilling (hsame ▸ hwilling)] at hanswer
    nomatch hanswer
  cases h with
  | idle | unknown | leaveNone => exact Or.inl (composes_tunes.refl s)
  | refused | report | leave => exact Or.inl (tunes_told s rfl)
  | @command i rest frames verb outcome s' hquit hverb hanswer hperform =>
      have hcommand := tunes_perform verb i (s.told (executed i))
      rw [hperform] at hcommand
      exact Or.inl (composes_tunes.trans (tunes_told s rfl) hcommand)
  | nested | transition => exact Or.inl (tunes_of_eq ⟨rfl, rfl, rfl⟩ rfl rfl)
  | hidden hscene hanswer =>
      exact Or.inl (hrefused rfl (roams_shown hscene _).toShares hanswer)
  | unannounced hscene hcall hanswer =>
      exact Or.inl (hrefused (presentation_told _) (shares_entered hscene _) hanswer)
  | @arrive index recorded frames scene hscene hcall hanswer =>
      exact Or.inr ⟨index, recorded, scene, hscene, rfl⟩

/-- A scene that opens with no sound may be entered at any time, and any scene once the project is
over. -/
theorem tunes_entered {index : Nat} (hscene : s.navigation.scenes[index]? = some scene)
    (recorded : Bool) (hnone : s.presentation.IsWilling → s.quit = false →
      ∀ args media, ¬scene.OpensWith args media) : Tunes s (s.entered index recorded scene) := by
  refine ⟨shares_entered hscene recorded, fun hwilling =>
    ⟨_, log_entered hwilling index recorded scene, fun hover => ?_, fun hgoing => ?_⟩⟩
  · rw [quit_entered] at hover
    exact Or.inl hover
  · refine LogEntry.inTune_cons hscene (by simp [LogEntry.shown?]) fun args media hopens => ?_
    exact absurd hopens (hnone hwilling hgoing args media)

/-- Any other scene is entered and opens with its sound. -/
theorem tunes_opening {index : Nat} (hscene : s.navigation.scenes[index]? = some scene)
    (recorded : Bool) (hwilling : s.presentation.IsWilling) (hgoing : s.quit = false)
    (hopens : scene.OpensWith args media) (frames : List Frame) :
    Tunes s ((s.entered index recorded scene).step .going
      (.commands (scene.autoCommands.filterMap Instruction.ofRecord?)) frames).1 := by
  obtain ⟨rest, hcommands⟩ := hopens.commands
  have hshares := shares_entered hscene recorded
  have hentered : (s.entered index recorded scene).presentation.IsWilling := by
    rwa [hshares.presentation]
  have hquit : (s.entered index recorded scene).quit = false := (quit_entered _ _ _).trans hgoing
  rw [hcommands, step_playWav hquit hentered hopens.media]
  refine ⟨composes_shares.trans hshares (shares_played _ _ _), fun _ =>
    ⟨.call (.goToScene index) :: (LogEntry.opening index scene args media ++
      [.event (.mediaStart .wave media.path)]), ?_, fun hover => ?_, fun _ => ?_⟩⟩
  · rw [log_played hentered, log_entered hwilling]
    simp [LogEntry.opening, executed]
  · rw [quit_played, hquit] at hover
    exact absurd hover Bool.false_ne_true
  · refine LogEntry.inTune_cons hscene (by simp [LogEntry.opening, LogEntry.shown?]) ?_
    intro args' media' hopens'
    obtain ⟨rfl, rfl⟩ := hopens.unique hopens'
    exact List.prefix_append _ _

theorem tunes_run (s : Session) (frames : List Frame) : Tunes s (s.run .going frames).1 := by
  refine composes_tunes.run_of_pairs (fun s flow frame frames => ?_) s .going frames
  rcases tunes_steps (steps s flow frame frames) with hone | ⟨index, recorded, scene, hscene, hout⟩
  · exact Or.inl hone
  · -- the step that enters a scene is in tune only together with the one that plays its sound
    by_cases hopens : s.presentation.IsWilling ∧ s.quit = false ∧
      ∃ args media, scene.OpensWith args media
    · obtain ⟨hwilling, hgoing, args, media, hopens⟩ := hopens
      refine Or.inr ⟨_, _, _, _, hout, ?_⟩
      exact tunes_opening hscene recorded hwilling hgoing hopens frames
    · refine Or.inl ?_
      rw [hout]
      refine tunes_entered hscene recorded fun hwilling hgoing args media hmedia => ?_
      exact hopens ⟨hwilling, hgoing, args, media, hmedia⟩

/-! ## Moves -/

theorem restores_tunes : Restores Tunes where
  toComposes := composes_tunes
  values _ _ := tunes_of_eq ⟨rfl, rfl, rfl⟩ rfl rfl
  navigation state s := by
    obtain ⟨_, _, _, _, _, hrestored, -⟩ := s.navigation.restore_eq state
    rw [hrestored]
    exact tunes_of_eq ⟨rfl, rfl, rfl⟩ rfl rfl
  hovered _ := tunes_of_eq ⟨rfl, rfl, rfl⟩ rfl rfl
  timers _ _ := tunes_of_eq ⟨rfl, rfl, rfl⟩ rfl rfl
  stopTimers _ := tunes_of_eq ⟨rfl, rfl, rfl⟩ rfl rfl
  turns _ _ := tunes_of_eq ⟨rfl, rfl, rfl⟩ rfl rfl

theorem attends_tunes : Attends Tunes where
  toComposes := composes_tunes
  told s _ h := tunes_told s h.not_shown.1
  hovered _ _ := tunes_of_eq ⟨rfl, rfl, rfl⟩ rfl rfl
  paused _ _ := tunes_of_eq ⟨rfl, rfl, rfl⟩ rfl rfl
  pauseTimers _ _ := tunes_of_eq ⟨rfl, rfl, rfl⟩ rfl rfl
  resumeTimers _ _ := tunes_of_eq ⟨rfl, rfl, rfl⟩ rfl rfl
  stopTimer _ _ := tunes_of_eq ⟨rfl, rfl, rfl⟩ rfl rfl
  stopTimers _ := tunes_of_eq ⟨rfl, rfl, rfl⟩ rfl rfl

/-- Whatever users, timers and lists do, what is told is in tune. -/
theorem spans_tunes : Machine.Spans (fun _ => True) Tunes where
  toComposes := composes_tunes
  run := tunes_run
  changeScene := composes_tunes.changeScene fun _ => tunes_of_eq ⟨rfl, rfl, rfl⟩ rfl rfl
  tick _ _ s := tunes_told s rfl
  marks _ _ _ := tunes_of_eq ⟨rfl, rfl, rfl⟩ rfl rfl
  clock _ _ _ _ := tunes_of_eq ⟨rfl, rfl, rfl⟩ rfl rfl
  plan s _ _ := (attends_tunes.planAny (fun _ _ => tunes_of_eq ⟨rfl, rfl, rfl⟩ rfl rfl)
    fun state _ => restores_tunes.restore state s).related

end Session

/-! ## Decoded projects -/

/-- The commands for entering a scene of a decoded stream are its sound, if it has one. -/
theorem Project.onEnter_of_decode {b : Buffer} {maxDistance : Int} {p : Project}
    (h : decode b maxDistance = .ok p) (hdialect : p.dialect = .stream) (hs : scene ∈ p.scenes) :
    ∃ offset, scene.onEnter =
      if scene.wave = "" then [] else [⟨.simple Command.playWav scene.wave, offset⟩] := by
  obtain ⟨-, hscenes⟩ := scenes_of_decode h
  rw [hscenes, hdialect] at hs
  obtain ⟨i, hi, rfl⟩ := List.mem_mapIdx.mp hs
  obtain ⟨_, _, _, hdecode⟩ := SceneStream.exists_decode_of_mem_read (List.getElem_mem hi)
  have hcommands := Scene.onEnter_of_decode hdecode
  exact hcommands

/-- A scene of a decoded stream opens with its sound, which is read from the arguments of a command
again. It is the whole path only if there is no blank in it. -/
theorem Project.opensWith_of_decode {b : Buffer} {maxDistance : Int} {p : Project}
    (h : decode b maxDistance = .ok p) (hdialect : p.dialect = .stream) (hs : scene ∈ p.scenes)
    (hwave : ∃ c ∈ scene.wave.toList, Text.isBlank c = false) :
    ∃ media, scene.OpensWith (Text.trimmed scene.wave) media ∧
      (Text.words (Text.trimmed scene.wave)).head? = some media.path ∧
      (media = { path := scene.wave, loop := false, volume := 100 } ↔
        ∀ c ∈ scene.wave.toList, Text.isBlank c = false) := by
  obtain ⟨offset, hcommands⟩ := onEnter_of_decode h hdialect hs
  obtain ⟨c, hc, hplain⟩ := hwave
  have hne : scene.wave ≠ "" := by
    rintro hempty
    rw [hempty] at hc
    nomatch hc
  have htrimmed : ∃ c ∈ (Text.trimmed scene.wave).toList, Text.isBlank c = false := by
    unfold Text.trimmed
    rw [String.toList_ofList]
    exact ⟨c, Text.mem_trim hc hplain, hplain⟩
  obtain ⟨media, hmedia, hpath⟩ := MediaArguments.parse_eq_ok htrimmed
  refine ⟨media, ⟨?_, hmedia⟩, hpath, fun hwhole => ?_, fun hall => ?_⟩
  · unfold Scene.autoCommands
    rw [hcommands, if_neg hne, List.filterMap_append]
    exact ⟨_, rfl⟩
  · subst hwhole
    exact MediaArguments.isBlank_of_mem_path hpath
  · have hsame : Text.trimmed scene.wave = scene.wave := by
      unfold Text.trimmed
      rw [Text.trim_eq_self hall, String.ofList_toList]
    rw [hsame, MediaArguments.parse_of_plain hne hall] at hmedia
    exact (Except.ok.inj hmedia).symm

namespace Machine

open Session

/-- What a scene's sound comes to. In whatever project is decoded from a stream, as long as the
presentation refuses nothing, whatever users, timers and lists do: wherever the presentation is
called on to show a scene with a sound, and nothing ended the project before, this is told of next,
then the command with the path of the sound, and then the presentation is called on to play it. What
it is called on to play is the first word of the path, so that it is the path, once and at full
volume, if and only if there is no blank in it. -/
theorem sound_of_scene (b : Buffer) (maxDistance : Int) (p : Project)
    (hdecode : Project.decode b maxDistance = .ok p) (hdialect : p.dialect = .stream)
    (presentation : Presentation) (hwilling : presentation.IsWilling) (minInterval : Int)
    (moves : List Move) (scene : Scene) (hscene : scene ∈ p.scenes)
    (hwave : ∃ c ∈ scene.wave.toList, Text.isBlank c = false) :
    let s := ((ofSession (Session.ofProject p presentation minInterval)).after moves).session
    let args := Text.trimmed scene.wave
    ∃ media, MediaArguments.parse args = .ok media ∧
      (Text.words args).head? = some media.path ∧
      (media = { path := scene.wave, loop := false, volume := 100 } ↔
        ∀ c ∈ scene.wave.toList, Text.isBlank c = false) ∧
      ∀ before after, s.log.toList = before ++ .call (.goToScene scene.index) :: after →
        .call .quit ∉ before →
          ∃ rest, after = .event (.sceneEnter scene.index scene.name) ::
            .event (.commandExecute "PLAYWAV" args) ::
            .call (.playWave media.path media.loop media.volume) :: rest := by
  intro s args
  obtain ⟨media, hopens, hpath, hwhole⟩ :=
    Project.opensWith_of_decode hdecode hdialect hscene hwave
  have htunes : Tunes (Session.ofProject p presentation minInterval) s :=
    spans_tunes.after (m := ofSession (Session.ofProject p presentation minInterval))
      (composes_tunes.refl _) fun _ _ => trivial
  obtain ⟨entries, hlog, -, htune⟩ := htunes.log hwilling
  refine ⟨media, hopens.media, hpath, hwhole, fun before after hsplit hquit => ?_⟩
  have hentries : entries = before ++ .call (.goToScene scene.index) :: after :=
    hlog.symm.trans hsplit
  have hindex : p.scenes[scene.index]? = some scene := Project.getElem?_index_of_decode hdecode hscene
  obtain ⟨rest, hrest⟩ := htune rfl before scene.index after hentries hquit scene _ _ hindex hopens
  exact ⟨rest, hrest.symm⟩

/-- A project file with one scene that has a sound, and nothing else. -/
def recital (wave : String) (h : IsStorable wave := by decide) : StoredProject where
  header := { flags := [0, 0, 0, 0, 0] }
  variableList := []
  scenes := [{
    music := true, wave, pathFirst := true, bitmap := "", reserved := List.replicate 8 0
    properties := 0, padding := 0, sentinel := none, groups := [], waveStorable := h
    bitmapStorable := by decide, length_reserved := rfl, properties_isWord := by decide }]
  headerStorable := by constructor <;> decide
  variablesStorable := nofun
  variableCount := rfl

theorem decode_recital (wave : String) (h : IsStorable wave) :
    Project.decode (recital wave h).encode.toArray (4096 : Nat) = .ok (recital wave h).project := by
  have hwritten : Buffer.HasAt (recital wave h).encode.toArray 0 (recital wave h).encode := by
    simpa using Buffer.hasAt_of_append [] (recital wave h).encode []
  exact (recital wave h).decode_of_hasAt hwritten List.size_toArray 4096

/-- There is one scene, at the beginning. -/
theorem scenes_recital (wave : String) (h : IsStorable wave) :
    ∃ scene, (recital wave h).project.scenes = [scene] ∧ scene.wave = wave ∧ scene.index = 0 :=
  ⟨_, rfl, rfl, rfl⟩

/-- What is told when the scene is shown. -/
def performance (p : Project) : List LogEntry :=
  ((ofSession (Session.ofProject p {} 16)).after [.act (.goToScene (.index 0))]).session.log.toList

theorem isWilling_default : Presentation.IsWilling {} := ⟨rfl, fun _ _ => rfl⟩

theorem sound_of_scene_march :
    let f := recital "march.wav"
    Project.decode f.encode.toArray (4096 : Nat) = .ok f.project ∧ f.project.dialect = .stream ∧
      Presentation.IsWilling {} ∧ (∃ c ∈ "march.wav".toList, Text.isBlank c = false) ∧
      ∃ name rest, performance f.project =
        .call (.goToScene 0) :: .event (.sceneEnter 0 name) ::
          .event (.commandExecute "PLAYWAV" (Text.trimmed "march.wav")) ::
          .call (.playWave "march.wav" false 100) :: rest := by
  intro f
  have hdecode := decode_recital "march.wav" (by decide)
  have hwave : ∃ c ∈ "march.wav".toList, Text.isBlank c = false := ⟨'m', by decide, by decide⟩
  obtain ⟨scene, hscenes, hpath, hindex⟩ := scenes_recital "march.wav" (by decide)
  obtain ⟨media, -, -, hwhole, hplayed⟩ := sound_of_scene _ _ f.project hdecode rfl {}
    isWilling_default 16 [.act (.goToScene (.index 0))] scene (by simp [f, hscenes])
    (by rwa [hpath])
  rw [hpath, hindex] at hplayed
  rw [hpath] at hwhole
  obtain rfl : media = { path := "march.wav" } := hwhole.mpr (by simp [Text.isBlank])
  have hhead : (performance f.project).head? = some (.call (.goToScene 0)) := by decide +kernel
  obtain ⟨after, hlog⟩ := List.head?_eq_some_iff.mp hhead
  obtain ⟨rest, hafter⟩ := hplayed [] after hlog List.not_mem_nil
  rw [hafter] at hlog
  exact ⟨hdecode, rfl, isWilling_default, hwave, scene.name, rest, hlog⟩

/-- Of a path with a blank in it only the first word is played. -/
theorem not_forall_sound_of_scene :
    ¬∀ (b : Buffer) (maxDistance : Int) (p : Project), Project.decode b maxDistance = .ok p →
      p.dialect = .stream → ∀ scene ∈ p.scenes,
        (∃ c ∈ scene.wave.toList, Text.isBlank c = false) →
        Text.trimmed scene.wave = scene.wave →
        ∀ before after, performance p = before ++ .call (.goToScene scene.index) :: after →
          .call .quit ∉ before → .call (.playWave scene.wave false 100) ∈ after := by
  intro h
  obtain ⟨scene, hscenes, hpath, hindex⟩ := scenes_recital "my music.wav" (by decide)
  have hplayed := h _ _ (recital "my music.wav").project (decode_recital "my music.wav" (by decide))
    rfl scene (by simp [hscenes]) (by rw [hpath]; exact ⟨'m', by decide, by decide⟩)
    (by rw [hpath]; decide)
  rw [hpath, hindex] at hplayed
  have hlog : performance (recital "my music.wav").project =
      [] ++ .call (.goToScene 0) :: [.event (.sceneEnter 0 ""),
        .event (.commandExecute "PLAYWAV" "my music.wav"), .call (.playWave "my" false 100),
        .event (.mediaStart .wave "my")] := by decide +kernel
  have hmem := hplayed _ _ hlog List.not_mem_nil
  revert hmem
  decide

end Machine

end PointAndClick
