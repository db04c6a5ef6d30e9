import PointAndClick.Proofs.Play.Spans
import PointAndClick.Proofs.Play.TimerTable

/-!
# What lists and users do to timers

A list of commands that runs, and a user who acts, may start timers, stop, pause and resume them,
and put saved ones in place of all. They never make one tick, and tell of no tick: that is the
machine's part. `Session.Tends` says so, of every run of a list (`Session.tends_run`) and of what a
user does at once (`Session.keeps_plan`).
-/

set_option autoImplicit false

namespace PointAndClick

namespace Session

variable {s s' : Session}

/-- The timers were started, stopped, paused or resumed, and no tick was told of. -/
structure Tends (s s' : Session) : Prop where
  timers : s.timers.Later s'.timers
  presentation : s'.presentation = s.presentation
  ticks : s'.log.toList.filter (·.isTick) = s.log.toList.filter (·.isTick)

/-- The timers may have changed, but nothing was told. -/
theorem tends_of_later (htimers : s.timers.Later s'.timers)
    (hpresentation : s'.presentation = s.presentation) (hlog : s'.log = s.log) : Tends s s' :=
  ⟨htimers, hpresentation, by rw [hlog]⟩

theorem tends_of_eq (htimers : s'.timers = s.timers)
    (hpresentation : s'.presentation = s.presentation) (hlog : s'.log = s.log) : Tends s s' :=
  tends_of_later (htimers ▸ .refl s.timers) hpresentation hlog

theorem Tends.refl (s : Session) : Tends s s := tends_of_eq rfl rfl rfl

theorem Tends.trans {s₁ s₂ s₃ : Session} (h : Tends s₁ s₂) (h' : Tends s₂ s₃) : Tends s₁ s₃ :=
  ⟨h.timers.trans h'.timers, h'.presentation.trans h.presentation, h'.ticks.trans h.ticks⟩

theorem timers_told (s : Session) (entry : LogEntry) : (s.told entry).timers = s.timers := by
  unfold told
  split <;> rfl

theorem tends_told (s : Session) {entry : LogEntry} (h : entry.isTick = false) :
    Tends s (s.told entry) where
  timers := timers_told s entry ▸ .refl s.timers
  presentation := presentation_told entry
  ticks := by
    rw [toList_log_told, List.filter_append]
    split
    · simp [h]
    · exact List.append_nil _

theorem composes_tends : Composes Tends := ⟨Tends.refl, Tends.trans⟩

theorem follows_tends : Follows Tends where
  toComposes := composes_tends
  told s _ h _ := tends_told s h
  write := composes_tends.write (fun _ _ => tends_of_eq rfl rfl rfl) fun s _ _ => tends_told s rfl
  font _ _ := tends_of_eq rfl rfl rfl
  quit _ := tends_of_eq rfl rfl rfl
  navigation _ _ := tends_of_eq rfl rfl rfl
  depth _ _ := tends_of_eq rfl rfl rfl
  startTimer _ _ _ _ := tends_of_later (TimerTable.later_start ..) rfl rfl
  stopTimer _ _ := tends_of_later (TimerTable.later_stop _) rfl rfl

theorem attends_tends : Attends Tends where
  toComposes := composes_tends
  told s _ h := tends_told s h.isTick_eq_false
  hovered _ _ := tends_of_eq rfl rfl rfl
  paused _ _ := tends_of_eq rfl rfl rfl
  pauseTimers id _ := tends_of_later (TimerTable.later_pause id) rfl rfl
  resumeTimers id _ := tends_of_later (TimerTable.later_resume id) rfl rfl
  stopTimer _ _ := tends_of_later (TimerTable.later_stop _) rfl rfl
  stopTimers _ := tends_of_later TimerTable.later_stopAll rfl rfl

theorem restores_tends : Restores Tends where
  toComposes := composes_tends
  values _ _ := tends_of_eq rfl rfl rfl
  navigation _ _ := tends_of_eq rfl rfl rfl
  hovered _ := tends_of_eq rfl rfl rfl
  timers saved _ := tends_of_later (TimerTable.later_restore saved) rfl rfl
  stopTimers _ := tends_of_later TimerTable.later_stopAll rfl rfl
  turns _ _ := tends_of_eq rfl rfl rfl

theorem tends_run (flow : Flow) (frames : List Frame) : Tends s (s.run flow frames).1 :=
  follows_tends.run s flow frames

theorem keeps_plan (a : Machine.Action) (s : Session) :
    Keeps Tends Machine.Plan.AsksNoTick (Machine.plan a) s :=
  attends_tends.planAny (fun _ _ => tends_of_eq rfl rfl rfl) fun state _ =>
    restores_tends.restore state s

end Session

end PointAndClick
