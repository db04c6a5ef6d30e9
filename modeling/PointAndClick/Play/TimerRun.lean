import PointAndClick.Play.Schedule
import PointAndClick.Play.Timer

/-!
# Timers on their own

A table of timers in time, without a project and on the schedule of a machine. What a timer does
when it ticks is a list of actions that is given for its identifier: to wait, to fail, or to start,
stop, pause and resume timers. A failure ends the tick and not the timer. The ticks of several
timers may overlap.
-/

set_option autoImplicit false

namespace PointAndClick

/-- What can be asked of a table of timers. -/
inductive TimerRequest
  | start (id : String) (interval : Json) (lines : List String) (tickCount : Int)
  | stop (id : String)
  | stopAll
  | pause (id : Option String)
  | resume (id : Option String)
  | restore (entries : Json)

/-- What a request gives. -/
inductive TimerReply
  | nothing
  | flag (value : Bool)
  | timer (timer : Timer)

/-- What a timer does when it ticks. -/
inductive TimerAction
  | sleep (duration : Nat)
  | fail (message : String)
  | ask (request : TimerRequest)

/-- A tick that is not done, with what is left of it. -/
structure OpenTick where
  serial : Nat
  id : String
  rest : List TimerAction

/-- Something that happened. -/
inductive TimerEvent
  | tick (time : Nat) (id : String) (count : Int)
  | woke (time : Nat) (id : String) (stopped : Bool)

namespace TimerRun

/-- Something that goes on at the present instant. -/
inductive Turn
  | beginTimer (serial : Nat)
  | tickTimer (serial : Nat)
  | goOn (tick : OpenTick)

/-- What waits for a time. -/
inductive Waiter
  | timer (serial : Nat)
  | tick (tick : OpenTick)

/-- A wait that ends. -/
abbrev Due : Type := PointAndClick.Due Waiter

end TimerRun

/-- Timers in time. -/
structure TimerRun where
  timers : TimerTable
  /-- What the timers of an identifier do when they tick. -/
  scripts : List (String × List TimerAction) := []
  now : Nat := 0
  nextOrder : Nat := 0
  turns : List TimerRun.Turn := []
  /-- The ticks that wait: until when, and their places among the waits that end then. -/
  sleeping : List (Nat × Nat × OpenTick) := []
  log : Array TimerEvent := #[]

namespace TimerRun

/-! ## Requests -/

/-- Adds turns to those of the present instant. -/
def addTurns (r : TimerRun) (turns : List Turn) : TimerRun :=
  { r with turns := r.turns ++ turns }

/-- Starts a timer. The one of its identifier is stopped even if the interval is wrong. -/
def start (r : TimerRun) (id : String) (interval : Json) (lines : List String) (tickCount : Int) :
    TimerRun × Except Fault TimerReply :=
  match lines.mapM Instruction.parse with
  | .error e => (r, .error e)
  | .ok commands =>
      match interval.savedInt with
      | .error e => ({ r with timers := r.timers.stop id }, .error e)
      | .ok interval =>
          let (timers, timer) := r.timers.start id interval commands tickCount
          ({ r with timers }.addTurns [.beginTimer timer.serial], .ok (.timer timer))

/-- Does what is asked. -/
def ask (r : TimerRun) : TimerRequest → TimerRun × Except Fault TimerReply
  | .start id interval lines tickCount => r.start id interval lines tickCount
  | .stop id =>
      ({ r with timers := r.timers.stop id }, .ok (.flag (r.timers.get? id).isSome))
  | .stopAll => ({ r with timers := r.timers.stopAll }, .ok .nothing)
  | .pause id => ({ r with timers := r.timers.pause id }, .ok .nothing)
  | .resume id =>
      let (timers, serials) := r.timers.resume id
      ({ r with timers }.addTurns (serials.map .tickTimer), .ok .nothing)
  | .restore entries =>
      let (timers, serials, outcome) := r.timers.restore entries
      ({ r with timers }.addTurns (serials.map .beginTimer), outcome.map fun _ => .nothing)

/-! ## Ticks -/

/-- Begins a timer's wait. -/
def beginWait (r : TimerRun) (serial : Nat) : TimerRun :=
  { r with
    timers := r.timers.beginWait serial r.now r.nextOrder
    nextOrder := r.nextOrder + 1 }

/-- The timer of a serial number was stopped or replaced. -/
def isStopped (r : TimerRun) (serial : Nat) : Bool :=
  (r.timers.bySerial? serial).isNone

/-- Does the actions of a tick, up to one that waits. After the last one, and after one that fails,
the timer waits again. A wait that the clock cannot count fails. -/
def act (r : TimerRun) (serial : Nat) (id : String) : List TimerAction → TimerRun
  | [] => r.beginWait serial
  | .sleep duration :: rest =>
      match Duration.onClock duration with
      | .error _ => r.beginWait serial
      | .ok 0 => r.addTurns [.goOn ⟨serial, id, rest⟩]
      | .ok duration =>
          let sleeper := (r.now + duration, r.nextOrder, OpenTick.mk serial id rest)
          { r with sleeping := r.sleeping ++ [sleeper], nextOrder := r.nextOrder + 1 }
  | .fail _ :: _ => r.beginWait serial
  | .ask request :: rest =>
      match r.ask request with
      | (r, .error _) => r.beginWait serial
      | (r, .ok _) => r.act serial id rest

/-- Goes on with a tick that waited. -/
def goOn (r : TimerRun) (t : OpenTick) : TimerRun :=
  { r with log := r.log.push (.woke r.now t.id (r.isStopped t.serial)) }.act t.serial t.id t.rest

/-- What the timers of an identifier do when they tick. -/
def scriptOf (r : TimerRun) (id : String) : List TimerAction := (r.scripts.lookup id).getD []

/-- A timer ticks. -/
def tick (r : TimerRun) (serial : Nat) : TimerRun :=
  let r := { r with timers := r.timers.beginTick serial }
  match r.timers.bySerial? serial with
  | none => r
  | some timer =>
      { r with log := r.log.push (.tick r.now timer.id timer.tickCount) }.act serial timer.id
        (r.scriptOf timer.id)

/-! ## The present instant -/

/-- The timer of a serial number is in a phase. -/
def isIn (r : TimerRun) (serial : Nat) (phase : TimerPhase) : Bool :=
  (r.timers.bySerial? serial).any (·.phase = phase)

/-- Takes a turn. The timer of a turn may have been stopped meanwhile. -/
def take (r : TimerRun) : Turn → TimerRun
  | .beginTimer serial => if r.isIn serial .fresh then r.beginWait serial else r
  | .tickTimer serial => if r.isIn serial .woken then r.tick serial else r
  | .goOn t => r.goOn t

/-- Takes the first turn, if there is one. -/
def takeFirst (r : TimerRun) : TimerRun :=
  match r.turns with
  | [] => r
  | t :: rest => { r with turns := rest }.take t

/-- The actions that are left of a turn, and one more if there can be any. -/
def Turn.actions : Turn → Nat
  | .goOn t => t.rest.length + 1
  | .beginTimer _ | .tickTimer _ => 0

/-- The actions of a timer that may tick without waiting any more, and one more. -/
def readyActions (r : TimerRun) (x : Timer) : Nat :=
  if x.phase = .awaiting ∨ x.phase = .woken then (r.scriptOf x.id).length + 1 else 0

/-! ## Time -/

/-- The waits that will end. -/
def dues (r : TimerRun) : List Due :=
  (r.timers.dues.map fun (time, order, serial) => ⟨time, order, .timer serial⟩) ++
    r.sleeping.map fun (time, order, t) => ⟨time, order, .tick t⟩

/-- Ends a wait. A timer that is paused goes on waiting until it is resumed. -/
def wake (r : TimerRun) (d : Due) : TimerRun :=
  let r := { r with now := max r.now d.time }
  match d.waiter with
  | .tick t => { r with sleeping := r.sleeping.filter fun (_, order, _) => order ≠ d.order }.goOn t
  | .timer serial =>
      if (r.timers.bySerial? serial).any (·.paused) then
        { r with timers := r.timers.update serial fun t => { t with phase := .awaiting } }
      else r.tick serial

/-- Timers on their own in time. -/
def schedule : Schedule TimerRun Waiter where
  turns r := r.turns.length
  takeFirst := takeFirst
  work r := (r.turns.map Turn.actions ++ r.timers.timers.map r.readyActions).foldr (· + ·) 0
  dues := dues
  wake := wake

/-- Lets some milliseconds pass. -/
def advance (r : TimerRun) (duration : Nat) : TimerRun :=
  let time := r.now + duration
  { schedule.passUntil time r with now := time }

/-- Does what is asked, and takes the turns of the present instant. -/
def perform (r : TimerRun) (request : TimerRequest) : TimerRun × Except Fault TimerReply :=
  let (r, outcome) := r.ask request
  (schedule.settle r, outcome)

end TimerRun

end PointAndClick
