import PointAndClick.Play.SavedValue
import PointAndClick.Scene.Basic
import PointAndClick.Text.LetterCase

/-!
# Navigation

Which scene of a project is shown, which were shown before, and which hotspots are switched off.
The history works as a browser's: showing a scene drops the entries ahead, and going back and
forward moves between the entries.
-/

set_option autoImplicit false

namespace PointAndClick

/-- How a scene is asked for. -/
inductive SceneRef
  /-- By its index. -/
  | index (index : Int)
  /-- By its number, which is one more than its index, or by its name. -/
  | text (text : String)
deriving DecidableEq, Repr

/-- Where in a project its user is. -/
structure Navigation where
  scenes : List Scene
  maxHistory : Nat := 100
  /-- The index of the scene shown. -/
  current : Option Nat := none
  /-- The indices of the scenes shown, the oldest first. -/
  history : List Nat := []
  /-- The entry of the history for the scene shown. -/
  place : Option Nat := none
  /-- The hotspots that are switched off, by scene and identifier, in order. -/
  disabled : List (Int × Int) := []
  /-- A change of scene is under way. -/
  transitioning : Bool := false
deriving DecidableEq, Repr

namespace Navigation

/-! ## Scenes -/

/-- The scene shown. -/
def currentScene? (n : Navigation) : Option Scene :=
  n.current.bind fun i => n.scenes[i]?

/-- The index of the scene shown, -1 if there is none. -/
def currentIndex (n : Navigation) : Int :=
  match n.current with
  | some i => i
  | none => -1

/-- The scene of an index. -/
def scene (n : Navigation) (index : Int) : Except Fault Scene :=
  if index < 0 then .error (.noScene index n.scenes.length)
  else
    match n.scenes[index.toNat]? with
    | some s => .ok s
    | none => .error (.noScene index n.scenes.length)

/-- The index of the first scene of a name, whatever its case and the blanks around it. -/
def findIndex? (n : Navigation) (name : String) : Option Nat :=
  (n.scenes.find? fun s =>
    Text.lowercased s.name = Text.lowercased (Text.trimmed name)).map (·.index)

/-- The index that a text asks for. -/
def indexOfText (n : Navigation) (text : String) : Except Fault Int :=
  match Text.integer? text with
  | some number => .ok (number - 1)
  | none =>
      match n.findIndex? text with
      | some index => .ok index
      | none => .error (.noSceneNamed text)

/-- The index of the scene that is asked for. -/
def resolve (n : Navigation) (ref : SceneRef) : Except Fault Nat := do
  let index ← match ref with
    | .index index => .ok index
    | .text text => n.indexOfText text
  let _ ← n.scene index
  return index.toNat

/-- The index of the current scene's neighbour in a direction. -/
def linkTarget? (n : Navigation) (d : Direction) : Option Int :=
  n.currentScene?.bind (·.links.get d)

/-! ## Changing the scene -/

/-- Starts a change of scene, unless one is under way. -/
def beginTransition (n : Navigation) : Option Navigation :=
  if n.transitioning then none else some { n with transitioning := true }

/-- Ends a change of scene. -/
def endTransition (n : Navigation) : Navigation :=
  { n with transitioning := false }

/-- How many entries of the history stay when a scene is shown: those up to the current one. -/
def keptEntries (n : Navigation) : Nat :=
  match n.place with
  | some p => p + 1
  | none => 0

/-- The last entry of a history. -/
def lastPlace (history : List Nat) : Option Nat :=
  if history.isEmpty then none else some (history.length - 1)

/-- The history with an entry behind the current one, which drops the entries ahead and, of a
history that grows too long, the oldest. -/
def record (n : Navigation) (index : Nat) : Navigation :=
  let grown := n.history.take n.keptEntries ++ [index]
  let history := grown.drop (grown.length - n.maxHistory)
  { n with history, place := lastPlace history }

/-- Shows a scene, with or without an entry in the history. -/
def enter (n : Navigation) (index : Nat) (recorded : Bool) : Navigation :=
  let n := { n with current := some index }
  if recorded then n.record index else n

/-! ## The history -/

/-- There is an entry before the current one. -/
def canGoBack (n : Navigation) : Bool :=
  match n.place with
  | some p => 0 < p
  | none => false

/-- The entry after the current one. -/
def nextPlace (n : Navigation) : Nat :=
  match n.place with
  | some p => p + 1
  | none => 0

/-- There is an entry after the current one. -/
def canGoForward (n : Navigation) : Bool :=
  n.nextPlace < n.history.length

/-- The entry at a place of the history. -/
def entryAt (n : Navigation) (place : Nat) : Except Fault (Option Nat) :=
  match n.history[place]? with
  | some index => .ok (some index)
  | none => .error .historyPlace

/-- Goes back one entry: the scene to show, if there is one. -/
def back (n : Navigation) : Navigation × Except Fault (Option Nat) :=
  match n.place with
  | some (p + 1) => ({ n with place := some p }, n.entryAt p)
  | _ => (n, .ok none)

/-- Goes forward one entry: the scene to show, if there is one. -/
def forward (n : Navigation) : Navigation × Except Fault (Option Nat) :=
  if n.canGoForward then ({ n with place := some n.nextPlace }, n.entryAt n.nextPlace)
  else (n, .ok none)

/-- Forgets everything but the scenes. -/
def reset (n : Navigation) : Navigation :=
  { scenes := n.scenes, maxHistory := n.maxHistory }

/-! ## Hotspots -/

/-- The order of scenes and identifiers. -/
def keyBefore (a b : Int × Int) : Bool :=
  a.1 < b.1 || (a.1 == b.1 && a.2 < b.2)

/-- The keys with one more, in order and each once. -/
def insertKey (k : Int × Int) : List (Int × Int) → List (Int × Int)
  | [] => [k]
  | l :: rest =>
      if l = k then l :: rest
      else if keyBefore k l then k :: l :: rest
      else l :: insertKey k rest

/-- Switches a hotspot on or off. -/
def setEnabled (n : Navigation) (scene hotspot : Int) (enabled : Bool) :
    Except Fault Navigation := do
  let s ← n.scene scene
  if s.hotspots.any fun h => (h.id : Int) = hotspot then
    let k := (scene, hotspot)
    return { n with
      disabled := if enabled then n.disabled.filter (· ≠ k) else insertKey k n.disabled }
  else .error (.noHotspot scene hotspot)

/-- The hotspot is not switched off. -/
def isEnabled (n : Navigation) (scene hotspot : Int) : Bool :=
  !n.disabled.contains (scene, hotspot)

/-! ## Saving -/

/-- A place of the history as a number, -1 for none. -/
def placeIndex (n : Navigation) : Int :=
  match n.place with
  | some p => p
  | none => -1

/-- The fields of a state to save. -/
def saveFields (n : Navigation) : List (String × Json) := [
  ("current_scene_index", .int n.currentIndex),
  ("navigation_history", Json.listOf (fun (i : Nat) => .int i) n.history),
  ("history_position", .int n.placeIndex),
  ("hotspot_enabled_flags",
    .object (n.disabled.map fun k =>
      (s!"{Text.decimal k.1}:{Text.decimal k.2}", .bool false)))]

/-- The saved entries that are indices of scenes. -/
def savedHistory (count : Nat) (items : List Json) : Except Fault (List Nat) := do
  let numbers ← items.mapM Json.savedInt
  return (numbers.filter fun (i : Int) => 0 ≤ i ∧ i < count).map Int.toNat

/-- The last entries of a history, as many as it may have; all of them if it may have none. -/
def cutHistory (maxHistory : Nat) (history : List Nat) : List Nat :=
  if maxHistory = 0 then history else history.drop (history.length - maxHistory)

/-- A saved place, moved into the history. -/
def savedPlace (history : List Nat) (place : Int) : Option Nat :=
  let last : Int := history.length - 1
  let p := max (-1) (min place last)
  if p < 0 then none else some p.toNat

/-- The scene and the hotspot of a saved key, which stand on the two sides of a colon. -/
def savedKey (key : String) : Except Fault (Int × Int) := do
  let cs := key.toList
  let scene ← (Json.text (String.ofList (cs.takeWhile (· ≠ ':')))).savedInt
  let hotspot ← (Json.text (String.ofList ((cs.dropWhile (· ≠ ':')).drop 1))).savedInt
  return (scene, hotspot)

/-- Switches saved hotspots off, up to the first whose key is wrong. -/
def disableSaved (n : Navigation) : List (String × Json) → Navigation × Except Fault Unit
  | [] => (n, .ok ())
  | (key, enabled) :: fields =>
      if enabled.isSet then n.disableSaved fields
      else
        match savedKey key with
        | .error e => (n, .error e)
        | .ok k => { n with disabled := insertKey k n.disabled }.disableSaved fields

/-- A saved state in place of what was. A state that is wrong leaves what was taken from it
before: history, place, scene, hotspots, in this order. -/
def restore (n : Navigation) (state : Json) : Navigation × Except Fault Unit :=
  let saved := do
    let fields ← state.savedFields
    savedHistory n.scenes.length
      (← ((fields.lookup "navigation_history").getD (.list [])).savedItems)
  match saved with
  | .error e => (n, .error e)
  | .ok history =>
      let history := cutHistory n.maxHistory history
      let n := { n with history }
      match ((state.field? "history_position").getD (.int (history.length - 1 : Int))).savedInt with
      | .error e => (n, .error e)
      | .ok place =>
          let n := { n with place := savedPlace history place }
          match ((state.field? "current_scene_index").getD (.int (-1))).savedInt with
          | .error e => (n, .error e)
          | .ok index =>
              let n := { n with
                current := if 0 ≤ index ∧ index < n.scenes.length then some index.toNat else none
                disabled := [] }
              match ((state.field? "hotspot_enabled_flags").getD (.object [])).savedFields with
              | .error e => (n, .error e)
              | .ok fields =>
                  match n.disableSaved fields with
                  | (n, .error e) => (n, .error e)
                  | (n, .ok ()) => ({ n with transitioning := false }, .ok ())

end Navigation

end PointAndClick
