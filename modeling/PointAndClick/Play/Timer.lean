import PointAndClick.Play.Duration
import PointAndClick.Play.SavedValue
import PointAndClick.Script.Instruction

/-!
# Timers

A timer waits for its interval and then ticks, over and over. A timer that is paused when its
wait is over waits on until it is resumed and ticks then. A timer whose interval is too long for the
clock never ticks. The table holds the timers that are neither stopped nor replaced, in the order
in which they were started.

A timer's tick may take time: it is not waiting meanwhile, and to stop or replace it then does not
break the tick off.
-/

set_option autoImplicit false

namespace PointAndClick

/-- What a timer is doing. -/
inductive TimerPhase
  /-- Its first wait has not begun. -/
  | fresh
  /-- It waits until a time. Of several that end then, the wait that began first comes first. -/
  | asleep (due order : Nat)
  /-- It waits for a time that does not come. -/
  | endless
  /-- Its wait is over, and it is to be resumed. -/
  | awaiting
  /-- It was resumed and is to tick. -/
  | woken
  /-- It ticks. -/
  | ticking
deriving DecidableEq, Repr

/-- A timer. The serial number tells it from the others that had its identifier. -/
structure Timer where
  serial : Nat
  id : String
  interval : Nat
  commands : List Instruction
  tickCount : Int := 0
  paused : Bool := false
  phase : TimerPhase := .fresh
deriving DecidableEq, Repr

namespace Timer

/-- A timer as a state to save. -/
def save (t : Timer) : Json :=
  .object [
    ("id", .text t.id),
    ("interval", .int t.interval),
    ("commands", Json.listOf (fun i => .text i.line) t.commands),
    ("tick_count", .int t.tickCount),
    ("paused", .bool t.paused)]

/-- The timer waits to be resumed. -/
def isAwaiting (t : Timer) : Bool := t.phase = .awaiting

/-- The timer after it is paused. -/
def pause (t : Timer) : Timer := { t with paused := true }

/-- The timer after it is resumed. -/
def resume (t : Timer) : Timer :=
  { t with paused := false, phase := if t.isAwaiting then .woken else t.phase }

end Timer

/-- The timers that are neither stopped nor replaced. -/
structure TimerTable where
  minInterval : Int := 16
  paused : Bool := false
  timers : List Timer := []
  nextSerial : Nat := 0
deriving DecidableEq, Repr

namespace TimerTable

/-! ## Looking up -/

/-- The timer of an identifier. -/
def get? (t : TimerTable) (id : String) : Option Timer :=
  t.timers.find? (·.id = id)

/-- The timer of a serial number. -/
def bySerial? (t : TimerTable) (serial : Nat) : Option Timer :=
  t.timers.find? (·.serial = serial)

/-- The table with a timer changed. -/
def update (t : TimerTable) (serial : Nat) (change : Timer → Timer) : TimerTable :=
  { t with timers := t.timers.map fun x => if x.serial = serial then change x else x }

/-! ## Starting and stopping -/

/-- Stops the timer of an identifier. -/
def stop (t : TimerTable) (id : String) : TimerTable :=
  { t with timers := t.timers.filter (·.id ≠ id) }

/-- Stops all timers. -/
def stopAll (t : TimerTable) : TimerTable :=
  { t with timers := [] }

/-- Starts a timer in place of the one of its identifier. An interval that is too short is made
longer, and a timer of a paused table starts paused. -/
def start (t : TimerTable) (id : String) (interval : Int) (commands : List Instruction)
    (tickCount : Int) : TimerTable × Timer :=
  let timer : Timer := {
    serial := t.nextSerial, id, interval := (max t.minInterval interval).toNat, commands, tickCount,
    paused := t.paused }
  ({ t.stop id with
      timers := (t.stop id).timers ++ [timer]
      nextSerial := t.nextSerial + 1 }, timer)

/-! ## Pausing and resuming -/

/-- Pauses the timer of an identifier, or all of them and those to come. -/
def pause (t : TimerTable) : Option String → TimerTable
  | none => { t with paused := true, timers := t.timers.map Timer.pause }
  | some id => { t with timers := t.timers.map fun x => if x.id = id then x.pause else x }

/-- Resumes the timer of an identifier, or all of them. Gives the serial numbers of those that
are to tick now, in order. -/
def resume (t : TimerTable) : Option String → TimerTable × List Nat
  | none =>
      ({ t with paused := false, timers := t.timers.map Timer.resume },
        (t.timers.filter Timer.isAwaiting).map (·.serial))
  | some id =>
      ({ t with timers := t.timers.map fun x => if x.id = id then x.resume else x },
        (t.timers.filter fun x => x.id = id && x.isAwaiting).map (·.serial))

/-! ## Waiting and ticking -/

/-- Begins a timer's wait at a time. -/
def beginWait (t : TimerTable) (serial now order : Nat) : TimerTable :=
  t.update serial fun x =>
    { x with
      phase := match Duration.onClock x.interval with
        | .ok duration => .asleep (now + duration) order
        | .error _ => .endless }

/-- The end of a timer's wait, and its place among those that end at the same time. -/
def dueOf? (x : Timer) : Option (Nat × Nat × Nat) :=
  match x.phase with
  | .asleep due order => some (due, order, x.serial)
  | _ => none

/-- The ends of the waits. -/
def dues (t : TimerTable) : List (Nat × Nat × Nat) :=
  t.timers.filterMap dueOf?

/-- Starts a timer's tick, which raises its count. -/
def beginTick (t : TimerTable) (serial : Nat) : TimerTable :=
  t.update serial fun x => { x with phase := .ticking, tickCount := x.tickCount + 1 }

/-! ## Saving -/

/-- The timers as a state to save. -/
def save (t : TimerTable) : Json :=
  Json.listOf Timer.save t.timers

/-- A field of a saved timer that has to be there. -/
def savedField (fields : List (String × Json)) (name : String) : Except Fault Json :=
  match fields.lookup name with
  | some v => .ok v
  | none => .error .savedField

/-- Starts a saved timer, and pauses it if it was paused. -/
def startSaved (t : TimerTable) (entry : Json) : Except Fault (TimerTable × Timer) := do
  let fields ← entry.savedFields
  let lines ← ((fields.lookup "commands").getD (.list [])).savedItems
  let commands ← lines.mapM fun line => do Instruction.parse (← line.savedText)
  let id := (← savedField fields "id").savedName
  let interval ← (← savedField fields "interval").savedInt
  let tickCount ← ((fields.lookup "tick_count").getD (.int 0)).savedInt
  let (t, timer) := t.start id interval commands tickCount
  if ((fields.lookup "paused").getD .null).isSet then return (t.pause (some id), timer)
  else return (t, timer)

/-- Starts saved timers, up to the first that is wrong. Gives the serial numbers of those
started. -/
def startAllSaved (t : TimerTable) : List Json → TimerTable × List Nat × Except Fault Unit
  | [] => (t, [], .ok ())
  | entry :: entries =>
      match t.startSaved entry with
      | .error e => (t, [], .error e)
      | .ok (t, timer) =>
          let (t, serials, outcome) := t.startAllSaved entries
          (t, timer.serial :: serials, outcome)

/-- The saved timers in place of all others. Gives the serial numbers of those started. -/
def restore (t : TimerTable) (state : Json) : TimerTable × List Nat × Except Fault Unit :=
  match state.savedItems with
  | .error e => (t.stopAll, [], .error e)
  | .ok entries => t.stopAll.startAllSaved entries

end TimerTable

end PointAndClick
