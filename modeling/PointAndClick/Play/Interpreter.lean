import PointAndClick.Hotspot.Placement
import PointAndClick.Play.Session
import PointAndClick.Play.Verb
import PointAndClick.Script.Arguments
import PointAndClick.Script.Condition
import PointAndClick.Text.FileStem

/-!
# Running commands

A list of commands runs one step at a time on a stack of frames, which hold what is still to do:
the rest of a list, the end of a command, the parts of a change of scene. A command that fails is
reported by an error event, and its list goes on. `run` goes on until all is done or a pause is
reached.
-/

set_option autoImplicit false

namespace PointAndClick

/-- Something that is still to do. -/
inductive Frame
  /-- The rest of a list of commands. -/
  | commands (rest : List Instruction)
  /-- The end of a command, where a failure in it is reported. -/
  | guarded (instruction : Instruction)
  /-- The end of a command that is part of another. -/
  | nested
  /-- The first part of a change of scene: what runs when the old scene is left. -/
  | leaving (target : Nat) (recorded : Bool)
  /-- The second part of a change of scene: the new scene, and what runs when it is entered. -/
  | arriving (target : Nat) (recorded : Bool)
  /-- The end of a change of scene. -/
  | transition
deriving DecidableEq, Repr

/-- What a command comes to. -/
inductive Next
  /-- It is done. -/
  | done
  /-- It waits for some milliseconds. -/
  | wait (duration : Nat)
  /-- There is more to do for it. -/
  | push (frames : List Frame)
deriving DecidableEq, Repr

namespace Session

/-! ## Parts of commands -/

/-- How deep commands in commands may go. -/
def maxNesting : Nat := 16

/-- The name of the object that shows a file: the stem of its path, or else the path. -/
def objectId (path : String) : String :=
  let stem := Text.fileStem path
  if stem = "" then path else stem

/-- A text, none if it is empty. -/
def nonempty? (text : String) : Option String :=
  if text = "" then none else some text

/-- The value of a result, or its fault. -/
def given {α : Type} (r : Except Fault α) : Act α :=
  match r with
  | .ok a => return a
  | .error e => throw e

/-- Runs a command that is part of another. -/
def nest (text : String) : Act Next := do
  let s ← get
  if maxNesting ≤ s.depth then throw (.nesting maxNesting)
  let i ← given (Instruction.parse text)
  set { s with depth := s.depth + 1 }
  return .push [.commands [i], .nested]

/-- Starts a change to a scene, unless one is under way. -/
def changeScene (index : Int) (recorded : Bool) : Act (Option (List Frame)) := do
  let s ← get
  let target ← given (s.navigation.scene index)
  match s.navigation.beginTransition with
  | none => return none
  | some navigation =>
      set { s with navigation }
      return some [.leaving target.index recorded, .transition]

/-- What a change of scene comes to as part of a command. -/
def nextOfChange : Option (List Frame) → Next
  | none => .done
  | some frames => .push frames

/-- The scene in a direction and whether it counts in the history: the linked one, or, backward
without a link, the one before in the history. -/
def destination (d : Direction) : Act (Option (Int × Bool)) := do
  match (← get).navigation.linkTarget? d with
  | some target => return some (target, true)
  | none =>
      if d = .backward then
        return (← navigating Navigation.back).map fun index => ((index : Int), false)
      else return none

/-- Moves in a direction, unless a change of scene is under way. -/
def navigate (d : Direction) : Act Next := do
  if (← get).navigation.transitioning then return .done
  match ← destination d with
  | none => return .done
  | some (target, recorded) =>
      call (.navigate d)
      return nextOfChange (← changeScene target recorded)

/-- Switches a hotspot of the current scene on or off. -/
def switchHotspot (word : String) (enabled : Bool) : Act Unit := do
  match Text.integer? word with
  | none => throw (.hotspotId word)
  | some id =>
      let s ← get
      let navigation ← given (s.navigation.setEnabled s.navigation.currentIndex id enabled)
      set { s with navigation }

/-- Writes a variable and tells of its new value under the name that was given. -/
def writeVariable (name : String)
    (write : Variables → Except Fault (Variables × Variables.Write)) : Act Unit := do
  let s ← get
  let (values, w) ← given (write s.values)
  set { s with values }
  emit (.variableChange (Text.uppercased name) w.new)

/-- Plays a sound and tells of it. -/
def playMedia (args : String) (kind : Media) (play : MediaArguments → Call) : Act Unit := do
  let media ← given (MediaArguments.parse args)
  call (play media)
  emit (.mediaStart kind media.path)

/-- Stops media and tells of it. -/
def stopMedia (kind : Media) (c : Call) : Act Unit := do
  call c
  emit (.mediaEnd kind)

/-! ## Commands -/

/-- Does what a verb asks for. -/
def perform (verb : Verb) (i : Instruction) : Act Next := do
  match verb with
  | .quit =>
      modify fun s => { s with quit := true }
      call .quit
      return .done
  | .navigate d => navigate d
  | .goToScene =>
      let index ← given ((← get).navigation.resolve (.text i.args))
      return nextOfChange (← changeScene index true)
  | .setHotspot =>
      let (word, rest) := Text.firstWord i.args
      if rest = "" then switchHotspot word true
      else
        match Text.integer? rest with
        | none => throw (.hotspotFlag rest)
        | some flag => switchHotspot word (flag ≠ 0)
      return .done
  | .enableHotspot =>
      switchHotspot i.args true
      return .done
  | .disableHotspot =>
      switchHotspot i.args false
      return .done
  | .tipText =>
      call (.showText "tiptext" i.args (← get).font)
      return .done
  | .playAvi =>
      let image := Placement.parse i.args
      call (.playAvi image)
      emit (.mediaStart .avi image.path)
      return .done
  | .playBmp =>
      let image := Placement.parse i.args
      call (.showImage (objectId image.path) image)
      return .done
  | .playWav =>
      playMedia i.args .wave fun m => .playWave m.path m.loop m.volume
      return .done
  | .playMid =>
      playMedia i.args .midi fun m => .playMidi m.path m.loop
      return .done
  | .playCda =>
      playMedia i.args .cda fun m => .playCda m.path m.loop
      return .done
  | .playHtml =>
      let page := Placement.parse i.args
      call (.showHtml (objectId page.path) page)
      return .done
  | .pause =>
      match Text.integer? (Text.firstWord i.args).1 with
      | none => throw (.pauseDuration i.args)
      | some duration =>
          if duration < 0 then throw (.pauseDuration i.args)
          call (.pause duration.toNat)
          return .wait (← given ((← get).presentation.pace.taken duration.toNat))
  | .execute =>
      let (program, args) := Text.firstWord i.args
      if program = "" then throw (.noProgram i.verb)
      call (.executeExternal program args)
      return .done
  | .explore =>
      if i.args = "" then throw .noFolder
      call (.executeExternal i.args "")
      return .done
  | .runProject =>
      let (path, args) := Text.firstWord i.args
      if path = "" then throw .noProject
      call (.runProject path args)
      return .done
  | .condition =>
      let condition ← given (Condition.parse i.args)
      match condition.select (← get).values.get with
      | none => return .done
      | some branch => if branch = "" then return .done else nest branch
  | .setVariable =>
      let v ← given (VariableArguments.parse i.args)
      match v.value with
      | none => return .done
      | some value =>
          writeVariable v.name fun vs => vs.set v.name value
          return .done
  | .incrementVariable =>
      let v ← given (VariableArguments.parse i.args)
      writeVariable v.name fun vs => vs.increment v.name (v.value.getD 1)
      return .done
  | .decrementVariable =>
      let v ← given (VariableArguments.parse i.args)
      writeVariable v.name fun vs => vs.decrement v.name (v.value.getD 1)
      return .done
  | .invalidate =>
      call .invalidate
      return .done
  | .setCursor =>
      call (.setCursor (nonempty? i.args))
      return .done
  | .addImage =>
      let (id, rest) := Text.firstWord i.args
      if rest = "" then throw (.imageArguments i.args)
      call (.showImage id (Placement.parse rest))
      return .done
  | .hideObject =>
      call (.hideObject (Text.firstWord i.args).1)
      return .done
  | .showObject =>
      call (.showObject (Text.firstWord i.args).1)
      return .done
  | .messageBox =>
      emit (.message i.args)
      return .done
  | .playCommand => nest i.args
  | .closeWav =>
      stopMedia .wave .stopWave
      return .done
  | .closeMid =>
      stopMedia .midi .stopMidi
      return .done
  | .closeAvi =>
      stopMedia .avi .stopAvi
      return .done
  | .stopAll =>
      stopMedia .all .stopAll
      return .done
  | .playText =>
      call (.showText "text" i.args (← get).font)
      return .done
  | .chooseFont =>
      modify fun s => { s with font := nonempty? i.args }
      return .done
  | .nothing => return .done
  | .addText =>
      let (id, text) := Text.firstWord i.args
      call (.showText id text (← get).font)
      return .done
  | .load =>
      emit (.loadRequest i.args)
      return .done
  | .save =>
      emit (.saveRequest i.args)
      return .done
  | .startTimer =>
      let t ← given (TimerArguments.parse i.args)
      let command ← given (Instruction.parse t.command)
      call (.startTimer t.id t.interval [command])
      startTimer t.id t.interval [command]
      return .done
  | .stopTimer =>
      let id := Text.trimmed i.args
      call (.stopTimer id)
      stopTimer id
      return .done

/-! ## Frames -/

/-- What goes on: the frames are being worked off, or left because of a failure. -/
inductive Flow
  | going
  | failing (fault : Fault)
deriving DecidableEq, Repr

/-- How a step leaves the stack. -/
inductive Progress
  | goOn (flow : Flow) (frames : List Frame)
  | wait (duration : Nat) (frames : List Frame)
deriving DecidableEq, Repr

/-- Goes on with some frames if something is done, or leaves them. -/
def proceed (s : Session) (act : Act Unit) (frames : List Frame) : Session × Progress :=
  match act s with
  | (.ok (), s) => (s, .goOn .going frames)
  | (.error e, s) => (s, .goOn (.failing e) frames)

/-- Runs a command on top of some frames. A command without a known verb does nothing. -/
def runInstruction (s : Session) (i : Instruction) (frames : List Frame) : Session × Progress :=
  match Verb.ofName? i.verb with
  | none => (s, .goOn .going frames)
  | some verb =>
      match emit (.commandExecute i.verb i.args) s with
      | (.error e, s) => (s, .goOn (.failing e) frames)
      | (.ok (), s) =>
          match perform verb i s with
          | (.error e, s) => (s, .goOn (.failing e) (.guarded i :: frames))
          | (.ok .done, s) => (s, .goOn .going (.guarded i :: frames))
          | (.ok (.wait duration), s) => (s, .wait duration (.guarded i :: frames))
          | (.ok (.push more), s) => (s, .goOn .going (more ++ .guarded i :: frames))

/-- The commands for leaving the current scene, which is told of first. -/
def leave (s : Session) (frames : List Frame) : Session × Progress :=
  match s.navigation.currentScene? with
  | none => (s, .goOn .going frames)
  | some scene =>
      s.proceed (emit (.sceneExit scene.index))
        (.commands (scene.onExit.filterMap Instruction.ofRecord?) :: frames)

/-- Shows a scene, tells of it, and goes on with the commands for entering it. -/
def arrive (s : Session) (target : Nat) (recorded : Bool) (frames : List Frame) :
    Session × Progress :=
  match s.navigation.scenes[target]? with
  | none => (s, .goOn .going frames)
  | some scene =>
      let shown := { s with navigation := s.navigation.enter target recorded }
      let announce : Act Unit := do
        call (.goToScene target)
        emit (.sceneEnter target scene.name)
      match announce shown with
      | (.ok (), s) =>
          (s, .goOn .going
            (.commands (scene.autoCommands.filterMap Instruction.ofRecord?) :: frames))
      | (.error e, s) => (s, .goOn (.failing e) frames)

/-- One step on the uppermost frame. -/
def step (s : Session) : Flow → Frame → List Frame → Session × Progress
  | .going, .commands [], frames => (s, .goOn .going frames)
  | .going, .commands (i :: rest), frames =>
      if s.quit then (s, .goOn .going frames) else s.runInstruction i (.commands rest :: frames)
  | .going, .guarded _, frames => (s, .goOn .going frames)
  | .going, .leaving target recorded, frames => s.leave (.arriving target recorded :: frames)
  | .going, .arriving target recorded, frames => s.arrive target recorded frames
  | .failing e, .guarded i, frames =>
      s.proceed (emit (.error i.verb i.args e.message)) frames
  | .failing e, .commands _, frames => (s, .goOn (.failing e) frames)
  | .failing e, .leaving .., frames => (s, .goOn (.failing e) frames)
  | .failing e, .arriving .., frames => (s, .goOn (.failing e) frames)
  | flow, .nested, frames => ({ s with depth := s.depth - 1 }, .goOn flow frames)
  | flow, .transition, frames =>
      ({ s with navigation := s.navigation.endTransition }, .goOn flow frames)

/-! ## Running -/

/-- How a run stops: all is done, or a pause is reached. -/
inductive Halt
  | finished (result : Except Fault Unit)
  | waiting (duration : Nat) (frames : List Frame)
deriving Repr

/-- Works off a stack of frames, in at most `fuel` steps. -/
def runFrames : Nat → Session → Flow → List Frame → Session × Halt
  | _, s, .going, [] => (s, .finished (.ok ()))
  | _, s, .failing e, [] => (s, .finished (.error e))
  | 0, s, _, _ => (s, .finished (.ok ()))
  | fuel + 1, s, flow, frame :: frames =>
      match s.step flow frame frames with
      | (s, .wait duration frames) => (s, .waiting duration frames)
      | (s, .goOn flow frames) => runFrames fuel s flow frames

/-- The greatest number that a scene of the project has. -/
def greatest (s : Session) (number : Scene → Nat) : Nat :=
  (s.navigation.scenes.map number).foldl max 0

/-- The length of the longest list that runs when a scene is left. -/
def longestExit (s : Session) : Nat := s.greatest (·.onExit.length)

/-- The length of the longest list that runs when a scene is entered. -/
def longestEntry (s : Session) : Nat := s.greatest (·.autoCommands.length)

/-- The most steps that a command on a stack takes, with all that it sets off. A chain of commands
in commands has at most 17 links of four steps each; its last link may change the scene, which
takes five steps and the chains of the commands for leaving and entering. -/
def commandSteps (s : Session) : Nat :=
  80 * (1 + s.longestExit + s.longestEntry)

/-- The most steps that a frame takes. -/
def frameSteps (s : Session) : Frame → Nat
  | .commands rest => 1 + rest.length * s.commandSteps
  | .leaving .. => 4 + (s.longestExit + s.longestEntry) * s.commandSteps
  | .arriving .. => 2 + s.longestEntry * s.commandSteps
  | .guarded _ | .nested | .transition => 1

/-- More steps than a stack takes. -/
def stackSteps (s : Session) : List Frame → Nat
  | [] => 1
  | frame :: frames => s.frameSteps frame + s.stackSteps frames

/-- Works off a stack of frames until all is done or a pause is reached. -/
def run (s : Session) (flow : Flow) (frames : List Frame) : Session × Halt :=
  runFrames (s.stackSteps frames) s flow frames

end Session

end PointAndClick
