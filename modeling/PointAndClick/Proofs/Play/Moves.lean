import PointAndClick.Play.Machine
import PointAndClick.Proofs.Play.Schedule

/-!
# Moves

A session in time makes moves, in whatever order its surroundings bring them about: a user acts or
calls, a turn of the present instant is taken, a wait ends, time passes. Each move runs up to the
next pause. All that a machine does, it does in moves (`Machine.Moves`).
-/

set_option autoImplicit false

namespace PointAndClick

/-- Something that can happen next. -/
inductive Move
  /-- A user acts; this may ask for the lock. -/
  | act (a : Machine.Action)
  /-- A call asks for the lock. -/
  | ask (r : Request)
  /-- One of the turns of the present instant is taken, in any order. -/
  | turn (t : Turn)
  /-- A wait ends, at any time. -/
  | wake (d : Machine.Due)
  /-- It becomes another time. -/
  | pass (time : Nat)

namespace Machine

/-- What is left of the turns once one is taken. -/
def dropTurn (m : Machine) (t : Turn) : Machine :=
  { m with session := { m.session with turns := m.session.turns.erase t } }

/-- Gives an action its number, and does at once what it does at once. -/
def enter (m : Machine) (a : Action) : Machine × Option Request :=
  let job := m.nextJob
  let m := { m with nextJob := job + 1 }
  match plan a m.session with
  | (.error e, s) => ({ m with session := s, results := m.results ++ [(job, .error e)] }, none)
  | (.ok (.done reply), s) =>
      ({ m with session := s, results := m.results ++ [(job, .ok reply)] }, none)
  | (.ok (.ask work reply), s) =>
      ({ m with session := s }, some { owner := .user job, work, reply })

/-- The call of a timer that ticks, if it is there. -/
def tickCall (m : Machine) (serial : Nat) : Machine × Option Request :=
  let timers := m.session.timers.beginTick serial
  ({ m with session := { m.session with timers } },
    (timers.bySerial? serial).map fun timer => { owner := .timer serial, work := .tick timer })

/-- Asks for the lock if there is a call. -/
def answer (step : Machine × Option Request) : Machine :=
  match step.2 with
  | none => step.1
  | some r => step.1.request r

theorem tick_eq_answer (m : Machine) (serial : Nat) :
    m.tick serial = answer (m.tickCall serial) := by
  unfold tick answer tickCall
  dsimp only
  cases (m.session.timers.beginTick serial).bySerial? serial <;> rfl

/-- What happens in a move. -/
def move (m : Machine) : Move → Machine
  | .act a => answer (m.enter a)
  | .ask r => m.request r
  | .turn t => if t ∈ m.session.turns then (m.dropTurn t).take t else m
  | .wake d => m.wake d
  | .pass time => { m with now := time }

/-- What happens in some moves. -/
def after (m : Machine) (moves : List Move) : Machine := moves.foldl move m

/-! ## What a machine does -/

/-- Some moves lead from one machine to another. -/
def Moves (m m' : Machine) : Prop := ∃ moves, m.after moves = m'

theorem Moves.refl (m : Machine) : Moves m m := ⟨[], rfl⟩

theorem Moves.trans {m₁ m₂ m₃ : Machine} (h : Moves m₁ m₂) (h' : Moves m₂ m₃) : Moves m₁ m₃ := by
  obtain ⟨moves, rfl⟩ := h
  obtain ⟨moves', rfl⟩ := h'
  exact ⟨moves ++ moves', List.foldl_append⟩

theorem moves_move (m : Machine) (move : Move) : Moves m (m.move move) := ⟨[move], rfl⟩

/-- A turn may be taken out of order; here the first one is taken, if there is one. -/
theorem takeFirst_cases (m : Machine) :
    m.session.turns = [] ∧ m.takeFirst = m ∨
      ∃ t ∈ m.session.turns, m.takeFirst = (m.dropTurn t).take t := by
  unfold takeFirst
  split
  · exact .inl ⟨‹_›, rfl⟩
  · rename_i t rest hturns
    refine .inr ⟨t, hturns ▸ List.mem_cons_self, ?_⟩
    unfold dropTurn
    rw [hturns, List.erase_cons_head]

theorem move_turn {m : Machine} {t : Turn} (h : t ∈ m.session.turns) :
    m.move (.turn t) = (m.dropTurn t).take t := if_pos h

theorem moves_takeFirst (m : Machine) : Moves m m.takeFirst := by
  rcases takeFirst_cases m with ⟨-, hsame⟩ | ⟨t, ht, htake⟩
  · rw [hsame]
    exact Moves.refl m
  · rw [htake, ← move_turn ht]
    exact moves_move m (.turn t)

theorem moves_settle (m : Machine) : Moves m (schedule.settle m) :=
  rounds_keeps (P := Moves m) (fun m' h => h.trans (moves_takeFirst m')) _ (Moves.refl m)

theorem moves_wakeFirst (m : Machine) (d : Due) : Moves m (schedule.wakeFirst m d) :=
  (moves_move m (.wake d)).trans (moves_settle _)

theorem moves_passWhile (wanted : Machine → Bool) (time : Nat) (m : Machine) :
    Moves m (schedule.passWhile wanted time m) := by
  refine rounds_keeps (P := Moves m) (fun m' h => h.trans ?_) _ (Moves.refl m)
  unfold Schedule.wakeNext
  split
  · exact Moves.refl m'
  · exact moves_wakeFirst m' _

theorem moves_advance (m : Machine) (duration : Nat) : Moves m (m.advance duration) :=
  (moves_passWhile _ (m.now + duration) m).trans (moves_move _ (.pass (m.now + duration)))

theorem moves_await (m : Machine) (job : Nat) : Moves m (m.await job).1 := by
  refine rounds_keeps (P := Moves m) (fun m' h => h.trans ?_) _ (Moves.refl m)
  unfold passPause
  split
  · exact Moves.refl m'
  · exact moves_passWhile _ _ m'

theorem submit_eq_settle (m : Machine) (a : Action) :
    (m.submit a).1 = schedule.settle (m.move (.act a)) := by
  unfold submit move enter
  dsimp only
  rcases plan a m.session with ⟨e | reply | ⟨work, reply⟩, s⟩ <;> rfl

theorem moves_submit (m : Machine) (a : Action) : Moves m (m.submit a).1 := by
  rw [submit_eq_settle]
  exact (moves_move m (.act a)).trans (moves_settle _)

theorem moves_perform (m : Machine) (a : Action) : Moves m (m.perform a).1 :=
  (moves_submit m a).trans (moves_await _ _)

end Machine

end PointAndClick
