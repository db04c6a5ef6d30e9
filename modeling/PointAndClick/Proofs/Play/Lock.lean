import PointAndClick.Proofs.Play.Growth

/-!
# The lock

What runs holds a lock, and what is asked for meanwhile waits in the queue. `Machine.Locks` says
how the lock is handed on: while it is free and something waits for it, exactly one turn of the
present instant hands it on, and otherwise none does. So nothing that waits is forgotten, and no
two that wait get the lock at once.

A machine can work for a call, which leaves the queue as it is (`Machine.Works`), or do something
aside, for no call (`Machine.Aside`).
-/

set_option autoImplicit false

namespace PointAndClick

namespace Machine

variable {m m' : Machine} {owner : Owner}

/-- How many turns of the present instant hand on the lock. -/
def grants (m : Machine) : Nat := m.session.turns.count .grant

/-- While the lock is free and something waits for it, one turn hands it on; otherwise none. -/
def Locks (m : Machine) : Prop :=
  m.grants = if m.running.isNone && !m.queue.isEmpty then 1 else 0

theorem locks_of_running {r : Running} (hrunning : m.running = some r) (h : m.grants = 0) :
    m.Locks := by
  simp [Locks, hrunning, h]

theorem Locks.grants_eq_zero (h : m.Locks) (hbusy : m.running.isSome ∨ m.queue = []) :
    m.grants = 0 := by
  unfold Locks at h
  rw [h, if_neg]
  cases hbusy with
  | inl hsome => cases hr : m.running <;> simp_all
  | inr hnil => simp [hnil]

/-- Nothing waits for a lock that is free and not being handed on. -/
theorem Locks.handedOn (h : m.Locks) (hqueue : m.queue ≠ []) :
    m.running.isSome ∨ .grant ∈ m.session.turns := by
  unfold Locks at h
  cases hrunning : m.running with
  | some running => exact .inl rfl
  | none =>
      refine .inr (List.count_pos_iff.mp ?_)
      show 0 < m.grants
      rw [h, hrunning, if_pos (by simpa using hqueue)]
      exact Nat.one_pos

/-- A turn that hands on the lock stands only for a queue that waits for a free one. -/
theorem Locks.of_grant_mem (h : m.Locks) (hgrant : Turn.grant ∈ m.session.turns) :
    m.running = none ∧ m.queue ≠ [] ∧ m.grants = 1 := by
  have hpos : 0 < m.grants := List.count_pos_iff.mpr hgrant
  unfold Locks at h
  split at h
  · rename_i hfree
    rw [Bool.and_eq_true, Option.isNone_iff_eq_none, Bool.not_eq_true'] at hfree
    exact ⟨hfree.1, fun hnil => by simp [hnil] at hfree, h⟩
  · omega

/-! ## Work for a call -/

/-- The machine has worked for a call: something was told, the lock is held or handed on, and the
queue is as it was. -/
structure Works (m m' : Machine) : Prop where
  locks : m'.Locks
  queue : m'.queue = m.queue
  told : ∃ entries, m'.session.log.toList = m.session.log.toList ++ entries

theorem Works.of_session {s : Session} (h : Works { m with session := s } m')
    (htold : ∃ entries, s.log.toList = m.session.log.toList ++ entries) : Works m m' := by
  obtain ⟨entries, hentries⟩ := htold
  obtain ⟨entries', hentries'⟩ := h.told
  exact ⟨h.locks, h.queue, entries ++ entries', by
    rw [hentries', hentries, List.append_assoc]⟩

theorem grants_of_grows {allowed : LogEntry → Prop} {s s' : Session}
    (h : Session.Grows allowed s s') : s'.turns.count .grant = s.turns.count .grant := by
  obtain ⟨turns, hturns, hgrant⟩ := h.turns
  rw [hturns, List.count_append, List.count_eq_zero.mpr hgrant, Nat.add_zero]

@[simp] theorem finish_running (result : Except Fault Reply) :
    (m.finish owner result).running = none := by
  unfold finish
  cases owner <;> dsimp only <;> split <;> rfl

@[simp] theorem finish_queue (result : Except Fault Reply) :
    (m.finish owner result).queue = m.queue := by
  unfold finish
  cases owner <;> dsimp only <;> split <;> rfl

@[simp] theorem finish_log (result : Except Fault Reply) :
    (m.finish owner result).session.log = m.session.log := by
  unfold finish
  cases owner <;> dsimp only <;> split <;> rfl

theorem finish_turns (result : Except Fault Reply) :
    (m.finish owner result).session.turns =
      if m.queue.isEmpty then m.session.turns else m.session.turns ++ [.grant] := by
  unfold finish
  cases owner <;> dsimp only <;> split <;> rfl

/-- The end of a call hands on the lock if something waits for it. -/
theorem works_finish (result : Except Fault Reply) (h : m.grants = 0) :
    Works m (m.finish owner result) where
  locks := by
    unfold grants at h
    simp only [Locks, grants, finish_turns, finish_running, finish_queue]
    -- where something waits, the turn that is added is the only one for the lock
    cases m.queue with
    | nil => exact h
    | cons r rest => exact (List.count_append ..).trans (by rw [h]; rfl)
  queue := finish_queue result
  told := ⟨[], by rw [finish_log, List.append_nil]⟩

theorem works_runFrames (reply : Reply) (frames : List Frame) (h : m.grants = 0) :
    Works m (m.runFrames owner reply frames) := by
  have hgrows := Session.grows_run (s := m.session) .going frames
  obtain ⟨entries, hlog, -⟩ := hgrows.log
  have hgrants : (m.session.run .going frames).1.turns.count .grant = 0 :=
    (grants_of_grows hgrows).trans h
  unfold runFrames
  split
  · rename_i s hrun
    rw [hrun] at hlog hgrants
    exact Works.of_session (s := s) (works_finish _ hgrants) ⟨entries, hlog⟩
  · rename_i s e hrun
    rw [hrun] at hlog hgrants
    exact Works.of_session (s := s) (works_finish _ hgrants) ⟨entries, hlog⟩
  · rename_i s duration frames' hrun
    rw [hrun] at hlog hgrants
    split
    · exact ⟨locks_of_running rfl hgrants, rfl, entries, hlog⟩
    -- a wait of no time is over with a turn, but that turn hands on no lock
    · refine ⟨locks_of_running rfl ?_, rfl, entries, hlog⟩
      exact (List.count_append ..).trans (by rw [hgrants]; rfl)

/-- What is done with the session before the work adds to the log and hands on no lock. -/
theorem Works.of_growsAt {α : Type} {act : Act α} {s : Session}
    (h : Session.GrowsAt Session.Anything act m.session) (hgrants : m.grants = 0)
    (hact : (act m.session).2 = s)
    (hwork : grants { m with session := s } = 0 → Works { m with session := s } m') :
    Works m m' := by
  unfold Session.GrowsAt at h
  rw [hact] at h
  obtain ⟨entries, hlog, -⟩ := h.log
  exact (hwork ((grants_of_grows h).trans hgrants)).of_session ⟨entries, hlog⟩

/-- Whatever is started holds the lock, or has already given it back. -/
theorem works_start (r : Request) (h : m.grants = 0) : Works m (m.start r) := by
  have hexecuting : ∃ entries, m.executing.session.log.toList = m.session.log.toList ++ entries :=
    ⟨[], (List.append_nil _).symm⟩
  unfold start
  split
  · exact Works.of_session (m := m) (works_runFrames r.reply _ h) hexecuting
  · rename_i index recorded _
    refine Works.of_session (m := m) ?_ hexecuting
    have hgrows : Session.GrowsAt Session.Anything (Session.changeScene index recorded)
        m.executing.session := Session.growsAt_changeScene index recorded _
    dsimp only
    split <;> rename_i hact
    · exact Works.of_growsAt hgrows h (congrArg Prod.snd hact) (works_finish _)
    · exact Works.of_growsAt hgrows h (congrArg Prod.snd hact) (works_finish _)
    · exact Works.of_growsAt hgrows h (congrArg Prod.snd hact) (works_runFrames _ _)
  · rename_i timer _
    split
    · exact works_finish _ h
    · refine Works.of_session (m := m) ?_ hexecuting
      have hgrows : Session.GrowsAt Session.Anything
          (Session.emit (.timerTick timer.id timer.tickCount)) m.executing.session :=
        Session.growsAt_emit trivial _
      dsimp only
      split <;> rename_i hact
      · exact Works.of_growsAt hgrows h (congrArg Prod.snd hact) (works_finish _)
      · exact Works.of_growsAt hgrows h (congrArg Prod.snd hact) (works_runFrames _ _)

/-- What is paused goes on. -/
theorem works_goOn {r : Running} (hrunning : m.running = some r) (h : m.grants = 0) :
    Works m m.goOn := by
  unfold goOn
  rw [hrunning]
  have hwork : Works { m with running := none }
      ({ m with running := none }.runFrames r.owner r.reply r.frames) :=
    works_runFrames r.reply r.frames h
  exact ⟨hwork.locks, hwork.queue, hwork.told⟩

/-! ## What is done aside -/

/-- The machine has done something for no call: it told only what is no part of a list, and left
the lock and the queue as they were. -/
structure Aside (m m' : Machine) : Prop where
  running : m'.running = m.running
  queue : m'.queue = m.queue
  grants : m'.grants = m.grants
  told : ∃ entries, m'.session.log.toList = m.session.log.toList ++ entries ∧
    ∀ e ∈ entries, e.IsOutside

theorem Locks.aside (h : m.Locks) (haside : Aside m m') : m'.Locks := by
  unfold Locks at h ⊢
  rw [haside.grants, haside.running, haside.queue, h]

theorem aside_of_eq (hrunning : m'.running = m.running) (hqueue : m'.queue = m.queue)
    (hturns : m'.session.turns = m.session.turns) (hlog : m'.session.log = m.session.log) :
    Aside m m' where
  running := hrunning
  queue := hqueue
  grants := congrArg (List.count Turn.grant) hturns
  told := ⟨[], by rw [hlog, List.append_nil], fun _ he => nomatch he⟩

theorem aside_of_grows (hrunning : m'.running = m.running) (hqueue : m'.queue = m.queue)
    (h : Session.Grows LogEntry.IsOutside m.session m'.session) : Aside m m' where
  running := hrunning
  queue := hqueue
  grants := grants_of_grows h
  told := h.log

end Machine

end PointAndClick
