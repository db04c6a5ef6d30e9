import PointAndClick.Play.Navigation
import PointAndClick.Play.Presentation
import PointAndClick.Play.Timer
import PointAndClick.Play.Variables
import PointAndClick.Project.Basic

/-!
# Sessions

The state of a running project, and what its user can do with it at once: pause it, save it, find
the hotspot under the pointer. What takes time is in `Play.Interpreter` and `Play.Machine`.

An `Act` changes a session and may fail; what it changed before it failed stays changed.
-/

set_option autoImplicit false

namespace PointAndClick

/-- A hotspot of a project, by the index of its scene and its place there. -/
structure HotspotRef where
  scene : Nat
  place : Nat
deriving DecidableEq, Repr

/-- Something that goes on at the present instant once what goes on now waits or ends. -/
inductive Turn
  /-- A timer that was started begins its first wait. -/
  | beginTimer (serial : Nat)
  /-- A timer that was resumed after its wait ticks. -/
  | tickTimer (serial : Nat)
  /-- The first in the queue may run. -/
  | grant
  /-- What runs goes on after a pause that takes no time. -/
  | resume
deriving DecidableEq, Repr

/-- The state of a running project. -/
structure Session where
  navigation : Navigation
  values : Variables := {}
  timers : TimerTable := {}
  presentation : Presentation := {}
  log : Array LogEntry := #[]
  font : Option String := none
  quit : Bool := false
  /-- How many commands that are parts of others are being run. -/
  depth : Nat := 0
  /-- A list of commands or a change of scene is being run. -/
  executing : Bool := false
  paused : Bool := false
  hovered : Option HotspotRef := none
  turns : List Turn := []

/-- Something done with a session. -/
abbrev Act (α : Type) : Type := ExceptT Fault (StateM Session) α

namespace Session

/-- A session with a project. -/
def ofProject (p : Project) (presentation : Presentation) (minInterval : Int) : Session where
  navigation := { scenes := p.scenes }
  values := Variables.load {} p.variableList
  timers := { minInterval }
  presentation := presentation

/-! ## The presentation -/

/-- Keeps an entry in the log, if there is one, and fails if the presentation refuses. -/
def tell (entry : LogEntry) : Act Unit := do
  let s ← get
  if s.presentation.records then set { s with log := s.log.push entry }
  match s.presentation.refusals s.log.size entry with
  | some message => throw (.presentation message)
  | none => return ()

/-- Makes a call to the presentation. -/
def call (c : Call) : Act Unit := tell (.call c)

/-- Tells the presentation of an event. -/
def emit (e : Event) : Act Unit := tell (.event e)

/-! ## Parts of the state -/

/-- Does something that may fail and leave another state of the navigation. -/
def navigating {α : Type} (f : Navigation → Navigation × Except Fault α) : Act α := do
  let s ← get
  let (navigation, outcome) := f s.navigation
  set { s with navigation }
  match outcome with
  | .ok a => return a
  | .error e => throw e

/-- Begins the first waits of timers once this waits or ends. -/
def beginTimers (serials : List Nat) : Act Unit :=
  modify fun s => { s with turns := s.turns ++ serials.map .beginTimer }

/-- Starts a timer. -/
def startTimer (id : String) (interval : Int) (commands : List Instruction) : Act Unit := do
  let s ← get
  let (timers, timer) := s.timers.start id interval commands 0
  set { s with timers }
  beginTimers [timer.serial]

/-- Stops a timer. -/
def stopTimer (id : String) : Act Unit :=
  modify fun s => { s with timers := s.timers.stop id }

/-- Pauses one timer, or all. -/
def pauseTimers (id : Option String) : Act Unit :=
  modify fun s => { s with timers := s.timers.pause id }

/-- Resumes one timer, or all. -/
def resumeTimers (id : Option String) : Act Unit :=
  modify fun s =>
    let (timers, serials) := s.timers.resume id
    { s with timers, turns := s.turns ++ serials.map .tickTimer }

/-! ## Pausing and stopping -/

/-- Pauses the project: its timers and its media. -/
def pause : Act Unit := do
  if (← get).paused then return ()
  modify fun s => { s with paused := true }
  pauseTimers none
  call .pauseMedia

/-- Resumes the project. -/
def resume : Act Unit := do
  if !(← get).paused then return ()
  modify fun s => { s with paused := false }
  resumeTimers none
  call .resumeMedia

/-- Stops all timers and media. -/
def stop : Act Unit := do
  modify fun s => { s with timers := s.timers.stopAll }
  call .stopAll

/-! ## Saving -/

/-- The state to save. -/
def save (s : Session) : Json :=
  .object <|
    ("variables", s.values.save) :: s.navigation.saveFields ++
      [("active_timers", s.timers.save)]

/-- Puts a saved state in place of the present one. A state that is wrong leaves what was taken
from it before. -/
def restore (state : Json) : Act Unit := do
  if let .error e := state.savedFields then throw e
  let s ← get
  let (values, outcome) := Variables.ofSaved ((state.field? "variables").getD (.object []))
  set { s with values }
  if let .error e := outcome then throw e
  navigating fun n => n.restore state
  modify fun s => { s with hovered := none }
  let saved := (state.field? "active_timers").getD (.list [])
  if saved.isSet then
    let s ← get
    let (timers, serials, outcome) := s.timers.restore saved
    set { s with timers }
    beginTimers serials
    if let .error e := outcome then throw e
  else
    modify fun s => { s with timers := s.timers.stopAll }
    if let .error e := saved.savedItems then throw e

/-! ## Hotspots -/

/-- The hotspot of a reference. -/
def hotspot? (s : Session) (r : HotspotRef) : Option Hotspot :=
  (s.navigation.scenes[r.scene]?).bind fun scene => scene.hotspots[r.place]?

/-- The identifier of the hotspot that the pointer is on. -/
def hoveredId? (s : Session) : Option Nat :=
  (s.hovered.bind s.hotspot?).map (·.id)

/-- The topmost of some hotspots that can be clicked at a point: of two that are as high, the
later one. `place` is the place of the first. -/
def topmost (n : Navigation) (scene : Nat) (p : Point) :
    Nat → Option (Nat × Int) → List Hotspot → Option (Nat × Int)
  | _, best, [] => best
  | place, best, h :: hs =>
      let hit := !h.isDangling && n.isEnabled scene h.id && h.contains p &&
        best.all fun b => b.2 ≤ h.z
      topmost n scene p (place + 1) (if hit then some (place, h.z) else best) hs

/-- The hotspot of the current scene that is clicked at a point. -/
def hitTest (s : Session) (p : Point) : Option HotspotRef :=
  match s.navigation.currentScene? with
  | none => none
  | some scene =>
      (topmost s.navigation scene.index p 0 none scene.hotspots).map fun best =>
        ⟨scene.index, best.1⟩

end Session

end PointAndClick
