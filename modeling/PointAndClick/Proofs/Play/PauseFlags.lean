import PointAndClick.Proofs.Play.Tending

/-!
# Pause flags

That a project is paused is marked in three places: in the session, in its table of timers, and in
each timer. The marks are in agreement, or in some weaker relation, as long as timers are not
resumed on their own (`Session.spans_aligned`): a pause and its end set all of them, and a timer
that is started takes its mark from the table.

Only the restoring of a saved state may part them. It takes the mark of each timer from the saved
state, and leaves those of the session and of the table as they are (`Session.restoresTimers`).
-/

set_option autoImplicit false

namespace PointAndClick

/-! ## Tables of timers -/

namespace TimerTable

variable {q : Bool → Bool → Prop} {t t' : TimerTable} {entry : Json} {entries : List Json}

/-- The mark of the table and that of each timer are in a relation. -/
def Flags (q : Bool → Bool → Prop) (t : TimerTable) : Prop := ∀ x ∈ t.timers, q t.paused x.paused

theorem flags_of_nil (h : t.timers = []) : t.Flags q := by
  intro x hx
  rw [h] at hx
  nomatch hx

theorem Flags.stop (h : t.Flags q) (id : String) : (t.stop id).Flags q :=
  fun x hx => h x (List.mem_of_mem_filter hx)

theorem Flags.update {change : Timer → Timer} (h : t.Flags q)
    (hchange : ∀ x, (change x).paused = x.paused) (serial : Nat) :
    (t.update serial change).Flags q := by
  intro y hy
  obtain ⟨x, hx, ⟨-, rfl⟩ | ⟨-, rfl⟩⟩ := mem_update hy
  · exact h y hx
  · rw [hchange]
    exact h x hx

/-- A single timer may be paused only where the table allows it. -/
theorem Flags.pauseOne (h : t.Flags q) (hpause : q t.paused true) (id : String) :
    (t.pause (some id)).Flags q := by
  intro y hy
  obtain ⟨x, hx, rfl⟩ := List.mem_map.mp hy
  split
  · exact hpause
  · exact h x hx

section

variable (hq : ∀ a, q a a)
include hq

theorem flags_pauseAll (t : TimerTable) : (t.pause none).Flags q := by
  intro y hy
  obtain ⟨x, -, rfl⟩ := List.mem_map.mp hy
  exact hq true

theorem flags_resumeAll (t : TimerTable) : (t.resume none).1.Flags q := by
  intro y hy
  obtain ⟨x, -, rfl⟩ := List.mem_map.mp hy
  exact hq false

/-- A timer that is started is paused if the table is. -/
theorem Flags.start (h : t.Flags q) (id : String) (interval : Int) (commands : List Instruction)
    (tickCount : Int) : (t.start id interval commands tickCount).1.Flags q := by
  intro y hy
  rcases List.mem_append.mp hy with hold | hnew
  · exact h.stop id y hold
  · rw [List.mem_singleton.mp hnew]
    exact hq t.paused

end

/-! ### Saved timers -/

/-- The saved timer was paused. -/
def isPausedSaved (entry : Json) : Bool :=
  match entry.savedFields with
  | .ok fields => ((fields.lookup "paused").getD .null).isSet
  | .error _ => false

theorem isPausedSaved_save (x : Timer) : isPausedSaved x.save = x.paused := rfl

/-- A saved timer that is not wrong is started, and then paused if it was. -/
theorem startSaved_eq_ok {timer : Timer} (h : t.startSaved entry = .ok (t', timer)) :
    ∃ id interval commands tickCount,
      let started := (t.start id interval commands tickCount).1
      t' = if isPausedSaved entry then started.pause (some id) else started := by
  simp only [startSaved, bind, Except.bind] at h
  cases hfields : entry.savedFields with
  | error e =>
      rw [hfields] at h
      cases h
  | ok fields =>
      have hpaused : isPausedSaved entry = ((fields.lookup "paused").getD .null).isSet := by
        unfold isPausedSaved
        rw [hfields]
      rw [hfields] at h
      dsimp only at h
      rw [hpaused]
      repeat' split at h
      all_goals cases h
      · rename_i hset
        exact ⟨_, _, _, _, (if_pos hset).symm⟩
      · rename_i hset
        exact ⟨_, _, _, _, (if_neg hset).symm⟩

theorem paused_startSaved {timer : Timer} (h : t.startSaved entry = .ok (t', timer)) :
    t'.paused = t.paused := by
  obtain ⟨id, interval, commands, tickCount, rfl⟩ := startSaved_eq_ok h
  split <;> rfl

theorem paused_startAllSaved (t : TimerTable) (entries : List Json) :
    (t.startAllSaved entries).1.paused = t.paused := by
  induction entries generalizing t with
  | nil => rfl
  | cons entry entries ih =>
      unfold startAllSaved
      split
      · rfl
      · rename_i hstart
        exact (ih _).trans (paused_startSaved hstart)

/-- Saved timers may be started where the table allows those of them to be paused that were. -/
theorem Flags.startAllSaved (hq : ∀ a, q a a) (h : t.Flags q)
    (hsaved : ∀ entry ∈ entries, isPausedSaved entry = true → q t.paused true) :
    (t.startAllSaved entries).1.Flags q := by
  induction entries generalizing t with
  | nil => exact h
  | cons entry entries ih =>
      obtain ⟨hentry, hentries⟩ := List.forall_mem_cons.mp hsaved
      unfold TimerTable.startAllSaved
      split
      · exact h
      · rename_i t' timer hstart
        rw [← paused_startSaved hstart] at hentries
        refine ih ?_ hentries
        obtain ⟨id, interval, commands, tickCount, rfl⟩ := startSaved_eq_ok hstart
        have hstarted := h.start hq id interval commands tickCount
        split
        · rename_i hpaused
          exact hstarted.pauseOne (hentry hpaused) id
        · exact hstarted

/-- Of saved timers that were all paused, and are all started, the last stays as it is. -/
theorem exists_paused_startAllSaved (hne : entries ≠ [])
    (hsaved : ∀ entry ∈ entries, isPausedSaved entry = true)
    (hok : (t.startAllSaved entries).2.2 = .ok ()) :
    ∃ x ∈ (t.startAllSaved entries).1.timers, x.paused = true := by
  induction entries generalizing t with
  | nil => exact absurd rfl hne
  | cons entry entries ih =>
      obtain ⟨hentry, hentries⟩ := List.forall_mem_cons.mp hsaved
      unfold startAllSaved at hok ⊢
      split at hok
      · nomatch hok
      · rename_i t' timer hstart
        cases entries with
        | cons next entries => exact ih (List.cons_ne_nil _ _) hentries hok
        | nil =>
            obtain ⟨id, interval, commands, tickCount, rfl⟩ := startSaved_eq_ok hstart
            let x := (t.start id interval commands tickCount).2
            have hx : x ∈ (t.start id interval commands tickCount).1.timers :=
              List.mem_append_right _ (List.mem_singleton_self _)
            rw [if_pos hentry]
            refine ⟨x.pause, List.mem_map.mpr ⟨x, hx, if_pos rfl⟩, rfl⟩

end TimerTable

/-! ## Sessions -/

namespace Session

variable {r q : Bool → Bool → Prop} {s s' : Session}

/-- The mark of the session is in a relation to that of its table of timers, and that of the table
in one to the mark of each timer. -/
structure Aligned (r q : Bool → Bool → Prop) (s : Session) : Prop where
  table : r s.paused s.timers.paused
  flags : s.timers.Flags q

theorem aligned_ofProject (hr : ∀ a, r a a) (p : Project) (presentation : Presentation)
    (minInterval : Int) : (ofProject p presentation minInterval).Aligned r q :=
  ⟨hr false, TimerTable.flags_of_nil rfl⟩

/-- Neither the mark of the session nor the timers were touched. -/
theorem Aligned.of_eq (h : s.Aligned r q) (hpaused : s'.paused = s.paused)
    (htimers : s'.timers = s.timers) : s'.Aligned r q := by
  refine ⟨?_, ?_⟩
  · rw [hpaused, htimers]
    exact h.table
  · rw [htimers]
    exact h.flags

@[simp] theorem paused_told (entry : LogEntry) : (s.told entry).paused = s.paused := by
  unfold told
  split <;> rfl

theorem Aligned.told (h : s.Aligned r q) (entry : LogEntry) : (s.told entry).Aligned r q :=
  h.of_eq (paused_told entry) (timers_told s entry)

/-- To reply changes nothing any more. -/
theorem snd_reply (act : Act Unit) (s : Session) :
    ((do act; return Machine.Plan.done .nothing) s).2 = (act s).2 := by
  rw [bind_apply]
  rcases act s with ⟨_ | _, s'⟩ <;> rfl

theorem pause_apply (s : Session) :
    pause s = if s.paused then (.ok (), s)
      else call .pauseMedia { s with paused := true, timers := s.timers.pause none } := by
  unfold pause
  rw [get_bind_apply]
  split <;> rfl

theorem resume_apply (s : Session) :
    resume s = if s.paused then
        call .resumeMedia { s with
          paused := false
          timers := (s.timers.resume none).1
          turns := s.turns ++ (s.timers.resume none).2.map .tickTimer }
      else (.ok (), s) := by
  unfold resume
  rw [get_bind_apply]
  cases s.paused <;> rfl

/-! ### Restoring a saved state -/

/-- The timers of a saved state. -/
def savedTimers (state : Json) : Json := (state.field? "active_timers").getD (.list [])

/-- Restoring a saved state, part by part: the variables, the navigation, the pointer and the
timers. -/
theorem restore_apply (state : Json) (s : Session) :
    restore state s =
      match state.savedFields with
      | .error e => (.error e, s)
      | .ok _ =>
          match Variables.ofSaved ((state.field? "variables").getD (.object [])) with
          | (values, .error e) => (.error e, { s with values })
          | (values, .ok ()) =>
              match s.navigation.restore state with
              | (navigation, .error e) => (.error e, { s with values, navigation })
              | (navigation, .ok ()) =>
                  if (savedTimers state).isSet then
                    ((s.timers.restore (savedTimers state)).2.2,
                      { s with
                        values, navigation, hovered := none
                        timers := (s.timers.restore (savedTimers state)).1
                        turns := s.turns ++
                          (s.timers.restore (savedTimers state)).2.1.map .beginTimer })
                  else
                    ((savedTimers state).savedItems.map fun _ => (),
                      { s with values, navigation, hovered := none, timers := s.timers.stopAll }) := by
  unfold restore
  cases state.savedFields with
  | error e => rfl
  | ok fields =>
      dsimp only
      rw [get_bind_apply]
      rcases Variables.ofSaved ((state.field? "variables").getD (.object [])) with
        ⟨values, e | _⟩
      · rfl
      · dsimp only
        rw [set_bind_apply, bind_apply, navigating_apply]
        dsimp only
        rcases s.navigation.restore state with ⟨navigation, e | _⟩
        · rfl
        · dsimp only
          rw [modify_bind_apply]
          unfold savedTimers
          split
          · rw [get_bind_apply, set_bind_apply, beginTimers, modify_bind_apply]
            dsimp only
            cases (s.timers.restore ((state.field? "active_timers").getD (.list []))).2.2 <;> rfl
          · rw [modify_bind_apply]
            dsimp only
            cases ((state.field? "active_timers").getD (.list [])).savedItems <;> rfl

/-- What restoring a saved state does to timers: nothing, if it fails before it comes to them; it
stops all if the state has none; and it starts those that the state has. -/
inductive RestoresTimers (state : Json) (s : Session) : Except Fault Unit × Session → Prop
  | untouched {e : Fault} {s' : Session} (hpaused : s'.paused = s.paused)
      (htimers : s'.timers = s.timers) : RestoresTimers state s (.error e, s')
  | stopped {outcome : Except Fault Unit} {s' : Session} (hset : (savedTimers state).isSet = false)
      (hpaused : s'.paused = s.paused) (htimers : s'.timers = s.timers.stopAll) :
      RestoresTimers state s (outcome, s')
  | started {s' : Session} (hset : (savedTimers state).isSet = true)
      (hpaused : s'.paused = s.paused)
      (htimers : s'.timers = (s.timers.restore (savedTimers state)).1) :
      RestoresTimers state s ((s.timers.restore (savedTimers state)).2.2, s')

theorem restoresTimers (state : Json) (s : Session) :
    RestoresTimers state s (restore state s) := by
  rw [restore_apply]
  split
  · exact .untouched rfl rfl
  · split
    · exact .untouched rfl rfl
    · split
      · exact .untouched rfl rfl
      · split
        · rename_i hset
          exact .started hset rfl rfl
        · rename_i hset
          exact .stopped (eq_false_of_ne_true hset) rfl rfl

/-- A saved state may be restored where the session allows those of its timers to be paused that
were. -/
theorem Aligned.restore (hq : ∀ a, q a a) (h : s.Aligned r q) {state : Json}
    (hsaved : ∀ entries, (savedTimers state).savedItems = .ok entries →
      ∀ entry ∈ entries, TimerTable.isPausedSaved entry = true → q s.timers.paused true) :
    (restore state s).2.Aligned r q := by
  have hcases := restoresTimers state s
  generalize Session.restore state s = out at hcases ⊢
  cases hcases with
  | untouched hpaused htimers => exact h.of_eq hpaused htimers
  | stopped hset hpaused htimers =>
      have hstopped : Aligned r q { s with timers := s.timers.stopAll } :=
        ⟨h.table, TimerTable.flags_of_nil rfl⟩
      exact hstopped.of_eq hpaused htimers
  | started hset hpaused htimers =>
      have hstarted : Aligned r q
          { s with timers := (s.timers.restore (savedTimers state)).1 } := by
        unfold TimerTable.restore
        split
        · exact ⟨h.table, TimerTable.flags_of_nil rfl⟩
        · rename_i entries hentries
          refine ⟨?_, ?_⟩
          · show r s.paused (s.timers.stopAll.startAllSaved entries).1.paused
            rw [TimerTable.paused_startAllSaved]
            exact h.table
          · have hnone : s.timers.stopAll.Flags q := TimerTable.flags_of_nil rfl
            exact hnone.startAllSaved hq (hsaved entries hentries)
      exact hstarted.of_eq hpaused htimers

end Session

/-- The action keeps marks of pauses in their relations: timers are not resumed on their own, and
they are paused on their own, or by a saved state, only where the relations allow it. -/
def Machine.Action.Aligns (r q : Bool → Bool → Prop) : Machine.Action → Prop
  | .resumeTimers _ => False
  | .pauseTimers _ => (∀ a, r a true) ∧ ∀ a, q a true
  | .restore _ => ∀ a, q a true
  | _ => True

/-- Timers that are paused on their own, or were saved in a pause, keep all those paused that have
to be. -/
theorem Machine.Action.aligns_le {a : Machine.Action} (h : ∀ id, a ≠ .resumeTimers id) :
    a.Aligns (· ≤ ·) (· ≤ ·) := by
  cases a with
  | resumeTimers id => exact absurd rfl (h id)
  | pauseTimers _ => exact ⟨Bool.le_true, Bool.le_true⟩
  | restore _ => exact Bool.le_true
  | _ => trivial

/-- The action pauses and resumes timers only all together with the session, and it restores
nothing. -/
def Machine.Action.IsWhole : Machine.Action → Prop
  | .pauseTimers _ | .resumeTimers _ | .restore _ => False
  | _ => True

theorem Machine.Action.IsWhole.aligns {a : Machine.Action} (h : a.IsWhole)
    (r q : Bool → Bool → Prop) : a.Aligns r q := by
  cases a <;> first | exact h.elim | trivial

namespace Session

variable {r q : Bool → Bool → Prop} {s s' : Session}

theorem points_aligned : Points fun s s' => s.Aligned r q → s'.Aligned r q where
  refl _ := id
  trans h h' := h' ∘ h
  told _ _ _ h := h.told _
  hovered _ _ h := h.of_eq rfl rfl

section

variable (hr : ∀ a, r a a) (hq : ∀ a, q a a)
include hr hq

theorem aligned_pause (h : s.Aligned r q) : (pause s).2.Aligned r q := by
  rw [pause_apply]
  split
  · exact h
  · have hpaused : Aligned r q { s with paused := true, timers := s.timers.pause none } :=
      ⟨hr true, TimerTable.flags_pauseAll hq s.timers⟩
    exact (points_aligned.call _).related hpaused

theorem aligned_resume (h : s.Aligned r q) : (resume s).2.Aligned r q := by
  rw [resume_apply]
  split
  · refine (points_aligned.call _).related ⟨hr false, ?_⟩
    exact TimerTable.flags_resumeAll hq s.timers
  · exact h

/-- What a user does at once keeps the marks in a relation. -/
theorem aligned_plan {a : Machine.Action} (ha : a.Aligns r q) (h : s.Aligned r q) :
    (Machine.plan a s).2.Aligned r q := by
  have hpoints := points_aligned (r := r) (q := q)
  have hplace (s : Session) (place : Option Nat) : s.Aligned r q →
      Aligned r q { s with navigation := { s.navigation with place } } := fun h => h.of_eq rfl rfl
  cases a with
  | back => exact (hpoints.planHistory hplace back_eq s).related h
  | forward => exact (hpoints.planHistory hplace forward_eq s).related h
  | pause =>
      rw [Machine.plan, snd_reply]
      exact aligned_pause hr hq h
  | resume =>
      rw [Machine.plan, snd_reply]
      exact aligned_resume hr hq h
  | stop =>
      have hstopped : Aligned r q { s with timers := s.timers.stopAll } :=
        ⟨h.table, TimerTable.flags_of_nil rfl⟩
      rw [Machine.plan, snd_reply]
      exact (hpoints.call _).related hstopped
  | restore state =>
      rw [Machine.plan, snd_reply]
      exact h.restore hq fun _ _ _ _ _ => ha _
  | pauseTimers id =>
      cases id with
      | none => exact ⟨ha.1 _, TimerTable.flags_pauseAll hq s.timers⟩
      | some id => exact ⟨h.table, h.flags.pauseOne (ha.2 _) id⟩
  | resumeTimers id => exact ha.elim
  | stopTimer id => exact ⟨h.table, h.flags.stop id⟩
  | _ =>
      refine (hpoints.plan ?_ s).related h
      trivial

omit hr in
theorem follows_aligned : Follows fun s s' => s.Aligned r q → s'.Aligned r q where
  toComposes := points_aligned.toComposes
  told _ _ _ _ h := h.told _
  write := points_aligned.toComposes.write (fun _ _ h => h.of_eq rfl rfl) fun _ _ _ h => h.told _
  font _ _ h := h.of_eq rfl rfl
  quit _ h := h.of_eq rfl rfl
  navigation _ _ h := h.of_eq rfl rfl
  depth _ _ h := h.of_eq rfl rfl
  startTimer id interval commands _ h :=
    ⟨h.table, h.flags.start hq id interval commands 0⟩
  stopTimer id _ h := ⟨h.table, h.flags.stop id⟩

/-- Whatever happens, the marks stay in the relation in which they are. -/
theorem spans_aligned : Machine.Spans (Machine.Action.Aligns r q)
    fun s s' => s.Aligned r q → s'.Aligned r q where
  toComposes := points_aligned.toComposes
  run s frames := (follows_aligned hq).run s .going frames
  changeScene := (follows_aligned hq).changeScene
  tick _ _ _ h := h.told _
  marks _ _ _ h := h.of_eq rfl rfl
  clock _ serial _ hchange h := ⟨h.table, h.flags.update (fun x => (hchange x).1) serial⟩
  plan _ _ ha h := aligned_plan hr hq ha h

end

end Session

namespace Machine

/-- An action that asks for nothing leaves the session as what is done at once leaves it. -/
theorem session_act_of_done {m : Machine} {act : Act Unit} {a : Action}
    (h : plan a = (do act; return .done .nothing)) :
    (m.move (.act a)).session = (act m.session).2 := by
  unfold move enter
  dsimp only
  rw [h, Session.bind_apply]
  rcases act m.session with ⟨_ | _, s⟩ <;> rfl

end Machine

end PointAndClick
