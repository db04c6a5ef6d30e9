import PointAndClick.Play.Interpreter
import PointAndClick.Play.Schedule

/-!
# The machine

A session in time. Lists of commands, changes of scene and timer ticks run one after another: what
is asked for while another runs, or is paused, waits in a queue. Time is counted in milliseconds
and passes only when nothing more can be done at the present instant; then the wait that ends
first is over. Of several waits that end at one time, the one that began first comes first.
-/

set_option autoImplicit false

namespace PointAndClick

/-- What is told to the one who asked for something, once it is done. -/
inductive Reply
  | nothing
  | flag (value : Bool)
  | hotspot (id : Option Nat)
  | state (saved : Json)

/-- Who asked for something. -/
inductive Owner
  /-- A user, with the number of the request. -/
  | user (job : Nat)
  /-- A timer. -/
  | timer (serial : Nat)
deriving DecidableEq, Repr

/-- What can be asked for. -/
inductive Work
  | commands (list : List Instruction)
  | goToScene (index : Int) (recorded : Bool)
  /-- A timer's tick; the timer is as it was when it came due. -/
  | tick (timer : Timer)
deriving DecidableEq, Repr

/-- Something asked for. -/
structure Request where
  owner : Owner
  work : Work
  reply : Reply := .nothing

/-- What runs, while it is paused. -/
structure Running where
  owner : Owner
  reply : Reply
  frames : List Frame
  /-- When its pause ends, and its place among the waits that end then; none if the pause takes
  no time. -/
  wake : Option (Nat × Nat) := none

/-- A session in time. -/
structure Machine where
  session : Session
  now : Nat := 0
  /-- The place of the next wait among those that end at the same time. -/
  nextOrder : Nat := 0
  running : Option Running := none
  queue : List Request := []
  nextJob : Nat := 0
  /-- What came of the requests of users that are done. -/
  results : List (Nat × Except Fault Reply) := []

namespace Machine

/-! ## Running what was asked for -/

/-- Adds a turn to those of the present instant. -/
def addTurn (m : Machine) (t : Turn) : Machine :=
  { m with session := { m.session with turns := m.session.turns ++ [t] } }

/-- Begins a timer's wait. -/
def beginWait (m : Machine) (serial : Nat) : Machine :=
  { m with
    session := { m.session with timers := m.session.timers.beginWait serial m.now m.nextOrder }
    nextOrder := m.nextOrder + 1 }

/-- Ends what ran: the next in the queue gets its turn, a user is told the result, and a timer
begins its next wait. -/
def finish (m : Machine) (owner : Owner) (result : Except Fault Reply) : Machine :=
  let m := { m with running := none, session := { m.session with executing := false } }
  let m := if m.queue.isEmpty then m else m.addTurn .grant
  match owner with
  | .user job => { m with results := m.results ++ [(job, result)] }
  | .timer serial => m.beginWait serial

/-- Works off frames until all is done or a pause is reached. -/
def runFrames (m : Machine) (owner : Owner) (reply : Reply) (frames : List Frame) : Machine :=
  match m.session.run .going frames with
  | (s, .finished (.ok ())) => { m with session := s }.finish owner (.ok reply)
  | (s, .finished (.error e)) => { m with session := s }.finish owner (.error e)
  | (s, .waiting duration frames) =>
      if 0 < duration then
        { m with
          session := s
          running := some { owner, reply, frames, wake := some (m.now + duration, m.nextOrder) }
          nextOrder := m.nextOrder + 1 }
      else
        { m with session := s, running := some { owner, reply, frames } }.addTurn .resume

/-- Marks that something is being run. -/
def executing (m : Machine) : Machine :=
  { m with session := { m.session with executing := true } }

/-- Starts what was asked for, with nothing else running. A tick of a timer that was stopped
meanwhile does nothing. -/
def start (m : Machine) (r : Request) : Machine :=
  match r.work with
  | .commands list => m.executing.runFrames r.owner r.reply [.commands list]
  | .goToScene index recorded =>
      let m := m.executing
      match Session.changeScene index recorded m.session with
      | (.error e, s) => { m with session := s }.finish r.owner (.error e)
      | (.ok none, s) => { m with session := s }.finish r.owner (.ok (.flag false))
      | (.ok (some frames), s) =>
          { m with session := s }.runFrames r.owner (.flag true) frames
  | .tick timer =>
      if (m.session.timers.bySerial? timer.serial).isNone then m.finish r.owner (.ok r.reply)
      else
        let m := m.executing
        match Session.emit (.timerTick timer.id timer.tickCount) m.session with
        | (.error e, s) => { m with session := s }.finish r.owner (.error e)
        | (.ok (), s) =>
            { m with session := s }.runFrames r.owner r.reply [.commands timer.commands]

/-- Runs what is asked for, or puts it into the queue. -/
def request (m : Machine) (r : Request) : Machine :=
  if m.running.isNone && m.queue.isEmpty then m.start r else { m with queue := m.queue ++ [r] }

/-- Goes on with what is paused. -/
def goOn (m : Machine) : Machine :=
  match m.running with
  | none => m
  | some r => { m with running := none }.runFrames r.owner r.reply r.frames

/-- A timer ticks: its count goes up, and its commands are asked for. -/
def tick (m : Machine) (serial : Nat) : Machine :=
  let timers := m.session.timers.beginTick serial
  let m := { m with session := { m.session with timers } }
  match timers.bySerial? serial with
  | none => m
  | some timer => m.request { owner := .timer serial, work := .tick timer }

/-! ## The present instant -/

/-- The timer of a serial number is in a phase. -/
def isIn (m : Machine) (serial : Nat) (phase : TimerPhase) : Bool :=
  (m.session.timers.bySerial? serial).any (·.phase = phase)

/-- Takes a turn. The timer of a turn may have been stopped meanwhile. -/
def take (m : Machine) : Turn → Machine
  | .beginTimer serial => if m.isIn serial .fresh then m.beginWait serial else m
  | .tickTimer serial => if m.isIn serial .woken then m.tick serial else m
  | .grant =>
      match m.queue with
      | [] => m
      | r :: rest => { m with queue := rest }.start r
  | .resume => m.goOn

/-- Takes the first turn, if there is one. -/
def takeFirst (m : Machine) : Machine :=
  match m.session.turns with
  | [] => m
  | t :: rest => { m with session := { m.session with turns := rest } }.take t

/-- More steps than what is asked for takes. A change takes as many to any scene. -/
def stepsOf (s : Session) : Work → Nat
  | .commands list => s.stackSteps [.commands list]
  | .goToScene index recorded => s.stackSteps [.leaving index.toNat recorded, .transition]
  | .tick timer => s.stackSteps [.commands timer.commands]

/-- More steps than are left of what runs. -/
def runningSteps (m : Machine) : Nat :=
  match m.running with
  | none => 0
  | some r => m.session.stackSteps r.frames

/-- More steps than what waits in the queue takes. -/
def queueSteps (m : Machine) : Nat :=
  (m.queue.map fun r => stepsOf m.session r.work).foldr (· + ·) 0

/-- More steps than the timers take that were resumed and are to tick. -/
def wokenSteps (s : Session) : Nat :=
  (s.timers.timers.map fun x => if x.phase = .woken then stepsOf s (.tick x) else 0).foldr (· + ·) 0

/-! ## Time -/

/-- What waits for a time. -/
inductive Waiter
  | timer (serial : Nat)
  | running
deriving DecidableEq, Repr

/-- A wait that ends. -/
abbrev Due : Type := PointAndClick.Due Waiter

/-- The waits that will end. -/
def dues (m : Machine) : List Due :=
  (m.session.timers.dues.map fun (time, order, serial) => ⟨time, order, .timer serial⟩) ++
    match m.running.bind (·.wake) with
    | some (time, order) => [⟨time, order, .running⟩]
    | none => []

/-- Ends a wait. A timer that is paused goes on waiting until it is resumed. -/
def wake (m : Machine) (d : Due) : Machine :=
  let m := { m with now := max m.now d.time }
  match d.waiter with
  | .running => m.goOn
  | .timer serial =>
      if (m.session.timers.bySerial? serial).any (·.paused) then
        let timers := m.session.timers.update serial fun t => { t with phase := .awaiting }
        { m with session := { m.session with timers } }
      else m.tick serial

/-- A machine in time. -/
def schedule : Schedule Machine Waiter where
  turns m := m.session.turns.length
  takeFirst := takeFirst
  work m := m.runningSteps + m.queueSteps + wokenSteps m.session
  dues := dues
  wake := wake

/-- Lets some milliseconds pass. -/
def advance (m : Machine) (duration : Nat) : Machine :=
  let time := m.now + duration
  { schedule.passUntil time m with now := time }

/-- What came of a user's request, if it is done. -/
def result? (m : Machine) (job : Nat) : Option (Except Fault Reply) :=
  m.results.lookup job

/-- A user's request is not done. -/
def isOpen (job : Nat) (m : Machine) : Bool := (m.result? job).isNone

/-- When the pause of what runs is over, as long as a user's request is not done. -/
def pauseEnd? (job : Nat) (m : Machine) : Option Nat :=
  if m.isOpen job then (m.running.bind (·.wake)).map Prod.fst else none

/-- Lets time pass until what runs goes on, as long as a user's request is not done. -/
def passPause (job : Nat) (m : Machine) : Machine :=
  match m.pauseEnd? job with
  | none => m
  | some time => schedule.passWhile (isOpen job) time m

/-! ## What a user can ask for -/

/-- What a user asks of a running project. -/
inductive Action
  | goToScene (ref : SceneRef)
  | execute (commands : List Instruction)
  | click (p : Point)
  | hover (p : Point)
  | hitTest (p : Point)
  | activate (r : HotspotRef)
  | back
  | forward
  | pause
  | resume
  | stop
  | save
  | restore (state : Json)
  | pauseTimers (id : Option String)
  | resumeTimers (id : Option String)
  | stopTimer (id : String)

/-- What an action comes to before anything is asked for: a result, or a request. -/
inductive Plan
  | done (reply : Reply)
  | ask (work : Work) (reply : Reply)

/-- The identifier of a hotspot. -/
def hotspotReply (s : Session) (r : Option HotspotRef) : Reply :=
  .hotspot ((r.bind s.hotspot?).map (·.id))

/-- Tells of a click on a hotspot, and asks for its commands. -/
def planActivate (r : HotspotRef) (reply : Reply) : Act Plan := do
  let s ← get
  match s.hotspot? r with
  | none => throw .historyPlace
  | some h =>
      Session.emit (.hotspotClick s.navigation.currentIndex h.id)
      return .ask (.commands (h.commands.filterMap Instruction.ofRecord?)) reply

/-- Follows the pointer: tells of the hotspot that it leaves and of the one that it enters, and
asks for the commands of the latter. -/
def planHover (p : Point) : Act Plan := do
  let s ← get
  let found := s.hitTest p
  let reply := hotspotReply s found
  if found = s.hovered then return .done reply
  let scene := s.navigation.currentIndex
  match s.hoveredId? with
  | some id => Session.emit (.hotspotExit scene id)
  | none => pure ()
  modify fun s => { s with hovered := found }
  match found.bind s.hotspot? with
  | none => return .done reply
  | some h =>
      Session.emit (.hotspotEnter scene h.id)
      let commands := h.hover.filterMap Instruction.ofRecord?
      return if h.hover.isEmpty then .done reply else .ask (.commands commands) reply

/-- Goes to a scene of the history, if there is one. -/
def planHistory (go : Navigation → Navigation × Except Fault (Option Nat)) : Act Plan := do
  match ← Session.navigating go with
  | none => return .done .nothing
  | some index => return .ask (.goToScene index false) .nothing

/-- What an action does at once. -/
def plan : Action → Act Plan
  | .goToScene ref => do
      let index ← Session.given ((← get).navigation.resolve ref)
      modify fun s => { s with hovered := none }
      return .ask (.goToScene index true) .nothing
  | .execute commands => return .ask (.commands commands) .nothing
  | .click p => do
      let s ← get
      match s.hitTest p with
      | none => return .done (.hotspot none)
      | some r => planActivate r (hotspotReply s (some r))
  | .hover p => planHover p
  | .hitTest p => do
      let s ← get
      return .done (hotspotReply s (s.hitTest p))
  | .activate r => planActivate r .nothing
  | .back => planHistory Navigation.back
  | .forward => planHistory Navigation.forward
  | .pause => do
      Session.pause
      return .done .nothing
  | .resume => do
      Session.resume
      return .done .nothing
  | .stop => do
      Session.stop
      return .done .nothing
  | .save => return .done (.state (← get).save)
  | .restore state => do
      Session.restore state
      return .done .nothing
  | .pauseTimers id => do
      Session.pauseTimers id
      return .done .nothing
  | .resumeTimers id => do
      Session.resumeTimers id
      return .done .nothing
  | .stopTimer id => do
      let running := ((← get).timers.get? id).isSome
      Session.stopTimer id
      return .done (.flag running)

/-- Starts an action under a number, and takes the turns of the present instant. -/
def submit (m : Machine) (a : Action) : Machine × Nat :=
  let job := m.nextJob
  let m := { m with nextJob := job + 1 }
  let m := match plan a m.session with
    | (.error e, s) => { m with session := s, results := m.results ++ [(job, .error e)] }
    | (.ok (.done reply), s) =>
        { m with session := s, results := m.results ++ [(job, .ok reply)] }
    | (.ok (.ask work reply), s) =>
        { m with session := s }.request { owner := .user job, work, reply }
  (schedule.settle m, job)

/-- Waits until an action is done, pause after pause, and gives what came of it. -/
def await (m : Machine) (job : Nat) : Machine × Except Fault Reply :=
  let pauses := m.runningSteps + m.queueSteps
  let m := rounds (fun m => (m.pauseEnd? job).toList.length) (passPause job) (pauses + 1) m
  (m, (m.result? job).getD (.ok .nothing))

/-- Does an action, with all the time that it takes. -/
def perform (m : Machine) (a : Action) : Machine × Except Fault Reply :=
  let (m, job) := m.submit a
  m.await job

/-- A project that starts to run. -/
def ofSession (s : Session) : Machine := { session := s }

end Machine

end PointAndClick
