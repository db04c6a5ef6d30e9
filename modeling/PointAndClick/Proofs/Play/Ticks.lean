import PointAndClick.Proofs.Play.Moves

/-!
# The ticks of a run

A timer whose wait is over asks for the lock, and its tick begins when it gets it, unless it was
stopped meanwhile. `Machine.ticks` lists the ticks that begin in some moves, each with the timer as
it came due and with the time.

Here time does not go back, a wait ends when it is due or later, and only timers ask for ticks
(`Machine.Timely`). Whatever a machine does of itself is like that (`Machine.reaches_perform`,
`Machine.reaches_advance`).
-/

set_option autoImplicit false

namespace PointAndClick

/-- A tick that began: the timer as it came due, and the time. -/
structure Tick where
  timer : Timer
  time : Nat
deriving DecidableEq, Repr

/-- What is told of a tick. -/
def Tick.entry (tick : Tick) : LogEntry :=
  .event (.timerTick tick.timer.id tick.timer.tickCount)

/-- The ticks of one timer among some. -/
def Tick.ofSerial (serial : Nat) (ticks : List Tick) : List Tick :=
  ticks.filter (·.timer.serial = serial)

theorem Tick.ofSerial_append (serial : Nat) (ticks ticks' : List Tick) :
    ofSerial serial (ticks ++ ticks') = ofSerial serial ticks ++ ofSerial serial ticks' :=
  List.filter_append ..

namespace Machine

variable {m : Machine}

/-! ## Ticks -/

/-- The timer whose tick begins when a call gets the lock, if it was not stopped meanwhile. -/
def begins? (m : Machine) (r : Request) : Option Timer :=
  match r.work with
  | .tick timer => if (m.session.timers.bySerial? timer.serial).isNone then none else some timer
  | _ => none

/-- The timer whose tick begins when a call asks for the lock: it gets it at once if it is free and
nothing waits. -/
def beginsNow? (step : Machine × Option Request) : Option Timer :=
  if step.1.running.isNone && step.1.queue.isEmpty then step.2.bind step.1.begins? else none

/-- The timer whose tick begins when a turn is taken. -/
def tickOfTurn? (m : Machine) : Turn → Option Timer
  | .beginTimer _ | .resume => none
  | .tickTimer serial => if m.isIn serial .woken then beginsNow? (m.tickCall serial) else none
  | .grant => m.queue.head?.bind m.begins?

/-- The timer whose tick begins when a wait ends. -/
def tickOfWait? (m : Machine) : Waiter → Option Timer
  | .running => none
  | .timer serial =>
      if (m.session.timers.bySerial? serial).any (·.paused) then none
      else beginsNow? (m.tickCall serial)

/-- The timer whose tick begins in a move. -/
def tick? (m : Machine) : Move → Option Timer
  | .act a => beginsNow? (m.enter a)
  | .ask r => beginsNow? (m, some r)
  | .turn t => if t ∈ m.session.turns then m.tickOfTurn? t else none
  | .wake d => m.tickOfWait? d.waiter
  | .pass _ => none

/-- The ticks that begin in some moves. -/
def ticks (m : Machine) : List Move → List Tick
  | [] => []
  | move :: moves =>
      ((m.tick? move).toList.map fun timer => ⟨timer, (m.move move).now⟩) ++
        (m.move move).ticks moves

/-- The ticks of one timer that begin in some moves. -/
def ticksOf (m : Machine) (serial : Nat) (moves : List Move) : List Tick :=
  Tick.ofSerial serial (m.ticks moves)

/-- The calls of a timer that wait for the lock. -/
def callsOf (m : Machine) (serial : Nat) : List Request :=
  m.queue.filter (·.owner = .timer serial)

theorem after_append (m : Machine) (moves moves' : List Move) :
    m.after (moves ++ moves') = (m.after moves).after moves' := List.foldl_append

theorem ticks_append (m : Machine) (moves moves' : List Move) :
    m.ticks (moves ++ moves') = m.ticks moves ++ (m.after moves).ticks moves' := by
  induction moves generalizing m with
  | nil => rfl
  | cons move moves ih =>
      rw [List.cons_append, ticks, ticks, ih, List.append_assoc]
      rfl

theorem ticksOf_append (m : Machine) (serial : Nat) (moves moves' : List Move) :
    m.ticksOf serial (moves ++ moves') =
      m.ticksOf serial moves ++ (m.after moves).ticksOf serial moves' := by
  unfold ticksOf
  rw [ticks_append, Tick.ofSerial_append]

/-! ## Time -/

/-- The move can come next: a wait that ends is one of those that go on, time does not go back, and
only timers ask for ticks. -/
def Admits (m : Machine) : Move → Prop
  | .ask r => (∃ job, r.owner = .user job) ∧ ∀ timer, r.work ≠ .tick timer
  | .wake d => d ∈ m.dues
  | .pass time => m.now ≤ time
  | _ => True

/-- Each of some moves can come when it does. -/
def Timely : Machine → List Move → Prop
  | _, [] => True
  | m, move :: moves => m.Admits move ∧ (m.move move).Timely moves

theorem timely_append {moves moves' : List Move} :
    m.Timely (moves ++ moves') ↔ m.Timely moves ∧ (m.after moves).Timely moves' := by
  induction moves generalizing m with
  | nil => exact ⟨fun h => ⟨trivial, h⟩, And.right⟩
  | cons move moves ih => exact (and_congr_right fun _ => ih).trans and_assoc.symm

section

variable {owner : Owner}

@[simp] theorem finish_now (result : Except Fault Reply) : (m.finish owner result).now = m.now := by
  unfold finish
  cases owner <;> dsimp only <;> split <;> rfl

@[simp] theorem runFrames_now (reply : Reply) (frames : List Frame) :
    (m.runFrames owner reply frames).now = m.now := by
  unfold runFrames
  split
  · exact finish_now _
  · exact finish_now _
  · split <;> rfl

@[simp] theorem start_now (r : Request) : (m.start r).now = m.now := by
  unfold start
  split
  · exact runFrames_now _ _
  · dsimp only
    split
    · exact finish_now _
    · exact finish_now _
    · exact runFrames_now _ _
  · split
    · exact finish_now _
    · dsimp only
      split
      · exact finish_now _
      · exact runFrames_now _ _

@[simp] theorem request_now (r : Request) : (m.request r).now = m.now := by
  unfold request
  split
  · exact start_now r
  · rfl

@[simp] theorem answer_now (step : Machine × Option Request) : (answer step).now = step.1.now := by
  unfold answer
  split
  · rfl
  · exact request_now _

@[simp] theorem goOn_now : m.goOn.now = m.now := by
  unfold goOn
  split
  · rfl
  · exact runFrames_now _ _

@[simp] theorem tick_now (serial : Nat) : (m.tick serial).now = m.now := by
  rw [tick_eq_answer]
  exact answer_now _

@[simp] theorem take_now (t : Turn) : (m.take t).now = m.now := by
  cases t with
  | beginTimer serial =>
      simp only [take]
      split <;> rfl
  | tickTimer serial =>
      simp only [take]
      split
      · exact tick_now serial
      · rfl
  | grant =>
      simp only [take]
      split
      · rfl
      · exact start_now _
  | resume => exact goOn_now

@[simp] theorem wake_now (d : Due) : (m.wake d).now = max m.now d.time := by
  unfold wake
  dsimp only
  split
  · exact goOn_now
  · split
    · rfl
    · exact tick_now _

theorem takeFirst_now : m.takeFirst.now = m.now := by
  rcases takeFirst_cases m with ⟨-, hsame⟩ | ⟨t, -, htake⟩
  · rw [hsame]
  · rw [htake]
    exact take_now t

theorem settle_now (m : Machine) : (schedule.settle m).now = m.now :=
  rounds_keeps (P := fun m' : Machine => m'.now = m.now) (fun _ h => takeFirst_now.trans h) _ rfl

end

/-! ## What a machine does -/

/-- Some moves, each when it can come, lead from one machine to another. -/
def Reaches (m m' : Machine) : Prop := ∃ moves, m.Timely moves ∧ m.after moves = m'

theorem Reaches.refl (m : Machine) : Reaches m m := ⟨[], trivial, rfl⟩

theorem Reaches.trans {m₁ m₂ m₃ : Machine} (h : Reaches m₁ m₂) (h' : Reaches m₂ m₃) :
    Reaches m₁ m₃ := by
  obtain ⟨moves, htimely, rfl⟩ := h
  obtain ⟨moves', htimely', rfl⟩ := h'
  exact ⟨moves ++ moves', timely_append.mpr ⟨htimely, htimely'⟩, after_append ..⟩

theorem reaches_move {move : Move} (h : m.Admits move) : Reaches m (m.move move) :=
  ⟨[move], ⟨h, trivial⟩, rfl⟩

theorem reaches_takeFirst (m : Machine) : Reaches m m.takeFirst := by
  rcases takeFirst_cases m with ⟨-, hsame⟩ | ⟨t, ht, htake⟩
  · rw [hsame]
    exact .refl m
  · have hadmits : m.Admits (.turn t) := trivial
    rw [htake, ← move_turn ht]
    exact reaches_move hadmits

theorem reaches_settle (m : Machine) : Reaches m (schedule.settle m) :=
  rounds_keeps (P := Reaches m) (fun m' h => h.trans (reaches_takeFirst m')) _ (.refl m)

theorem reaches_wakeFirst {d : Due} (hd : d ∈ m.dues) : Reaches m (schedule.wakeFirst m d) := by
  have hadmits : m.Admits (.wake d) := hd
  exact (reaches_move hadmits).trans (reaches_settle _)

theorem reaches_passWhile (wanted : Machine → Bool) (time : Nat) (m : Machine) :
    Reaches m (schedule.passWhile wanted time m) := by
  refine rounds_keeps (P := Reaches m) (fun m' h => h.trans ?_) _ (.refl m)
  unfold Schedule.wakeNext
  split
  · exact .refl m'
  · rename_i d hnext
    exact reaches_wakeFirst (Due.mem_of_first (Schedule.next?_eq_some hnext).1)

/-- The time does not pass beyond the one up to which waits are ended. -/
theorem now_passWhile_le (wanted : Machine → Bool) {time : Nat} (hnow : m.now ≤ time) :
    (schedule.passWhile wanted time m).now ≤ time := by
  refine rounds_keeps (P := fun m' : Machine => m'.now ≤ time) (fun m' hle => ?_) _ hnow
  unfold Schedule.wakeNext
  split
  · exact hle
  · rename_i d hnext
    have hwoken : (schedule.wakeFirst m' d).now = max m'.now d.time :=
      (settle_now _).trans (wake_now d)
    exact hwoken ▸ Nat.max_le.mpr ⟨hle, (Schedule.next?_eq_some hnext).2⟩

theorem reaches_advance (m : Machine) (duration : Nat) : Reaches m (m.advance duration) := by
  have hadmits : Admits _ (.pass (m.now + duration)) :=
    now_passWhile_le (m := m) (fun _ => true) (Nat.le_add_right m.now duration)
  exact (reaches_passWhile _ _ m).trans (reaches_move hadmits)

theorem reaches_passPause (job : Nat) (m : Machine) : Reaches m (m.passPause job) := by
  unfold passPause
  split
  · exact .refl m
  · exact reaches_passWhile _ _ m

theorem reaches_await (m : Machine) (job : Nat) : Reaches m (m.await job).1 :=
  rounds_keeps (P := Reaches m) (fun m' h => h.trans (reaches_passPause job m')) _ (.refl m)

theorem reaches_submit (m : Machine) (a : Action) : Reaches m (m.submit a).1 := by
  have hadmits : m.Admits (.act a) := trivial
  rw [submit_eq_settle]
  exact (reaches_move hadmits).trans (reaches_settle _)

theorem reaches_perform (m : Machine) (a : Action) : Reaches m (m.perform a).1 :=
  (reaches_submit m a).trans (reaches_await _ _)

end Machine

end PointAndClick
