import PointAndClick.Boundary.Scan
import PointAndClick.CommandLine.Query
import PointAndClick.Export.Files
import PointAndClick.Export.Folder
import PointAndClick.Play.Machine
import PointAndClick.Project.Decode
import PointAndClick.Text.Occurrence
import PointAndClick.Text.Plain

/-!
# Answers to a command line

What is printed for each query about a project file, and the files that it leaves behind.
-/

set_option autoImplicit false

namespace PointAndClick.CommandLine

/-! ## Columns -/

/-- A number with blanks before it, up to a width. -/
def column (width : Nat) (n : Nat) : String :=
  Text.padLeft width ' ' (Text.decimal n)

/-- A position in a file. -/
def offsetText (offset : Nat) : String :=
  "@0x" ++ Text.padLeft 6 '0' (Text.hexadecimal offset)

/-- A text, or a hyphen for an empty one. -/
def orHyphen (s : String) : String :=
  if s = "" then "-" else s

/-! ## Projects -/

/-- The header of a project, its sizes and what decoding has to say about it. -/
def infoLines (p : Project) : List String :=
  let h := p.header
  let variableCount := p.variableList.length
  let variablesEnd := Text.hexadecimal p.variablesEnd
  [ s!"Magic:      {h.magic} v{h.version}",
    s!"Project:    {h.projectName}",
    s!"Editor:     {h.editor}",
    s!"Format:     {h.formatType}",
    s!"Display:    {h.width}x{h.height} @{h.depth}bpp" ] ++
  (if h.dllPath = "" then [] else [s!"DLL:        {h.dllPath}"]) ++
  [ s!"Variables:  {variableCount}/{h.variableCount} (ends at 0x{variablesEnd})",
    s!"Dialect:    {p.dialect.letter}",
    s!"Scenes:     {p.scenes.length}",
    s!"Hotspots:   {p.hotspotCount}" ] ++
  p.errors.map fun e => s!"  ! {e}"

/-- A variable and its value. -/
def variableLine (v : Variable) : String :=
  Text.padRight 32 v.name ++ " " ++ Text.decimal v.value

/-! ## Scenes -/

/-- The scene of a number. -/
def sceneOf (p : Project) (n : Int) : Except Misuse Scene :=
  match if n < 1 then none else p.scenes[n.toNat - 1]? with
  | some s => .ok s
  | none => .error (.noScene p.scenes.length)

/-- A scene in a list of scenes. -/
def sceneLine (s : Scene) : String :=
  let name := Text.padRight 24 (orHyphen s.name)
  let background := Text.padRight 32 (orHyphen s.background)
  column 3 s.number ++ ". " ++ offsetText s.offset ++ " " ++ name ++ " " ++ background ++
    s!" {s.clickable.length}/{s.hotspots.length} hotspots"

/-- The kind of a hotspot's shape. -/
def shapeName : Option Shape → String
  | none => "dangling"
  | some (.rectangle ..) => "Rectangle"
  | some (.polygon _) => "Polygon"

/-- A hotspot and its commands. -/
def hotspotLines (h : Hotspot) : List String :=
  s!"  Hotspot {h.id} ({shapeName h.shape}) {h.image} @{h.x},{h.y},{h.z}" ::
    (h.commands.map fun r => s!"    {r.describe}") ++
    h.hover.map fun r => s!"    (hover) {r.describe}"

/-- A scene with its hotspots and commands. -/
def sceneLines (s : Scene) : List String :=
  [s!"=== Scene {s.number}: {s.name} ===", "Background: " ++ orHyphen s.background] ++
  (if s.wave = "" then [] else [s!"Wave:       {s.wave}"]) ++
  (s.onEnter.map fun r => s!"  [enter] {r.describe}") ++
  s.hotspots.flatMap hotspotLines

/-! ## Commands -/

/-- A text occurs in the text of a record, whatever the case of the letters. -/
def mentions (part : String) (r : Record) : Bool :=
  Text.occursIn (Text.lower part.toList) (Text.lower r.text.toList)

/-- The commands of a scene with a text in them. -/
def searchLines (part : String) (s : Scene) : List String :=
  (s.records.filter (mentions part)).map fun r =>
    "Scene " ++ column 3 s.number ++ " " ++ offsetText r.offset ++ "  " ++ r.describe

/-- What the text of a condition says. -/
def conditionDetail (text : String) : String :=
  match Condition.parse text with
  | .ok c => s!"{c.name} {c.symbol} {c.value}"
  | .error e => "malformed: " ++ e.message

/-- The conditions of a scene. -/
def conditionLines (s : Scene) : List String :=
  (s.records.filter (·.code? = some Command.condition)).map fun r =>
    "Scene " ++ column 3 s.number ++ "  " ++ r.text ++ "  [" ++ conditionDetail r.text ++ "]"

/-! ## Boundaries -/

/-- A scene start on one line. -/
def boundaryLine (s : Boundary.SceneStart) : String :=
  column 3 s.index ++ ". @" ++ column 6 s.position ++ " [" ++ Text.padRight 5 s.kind.label ++
    "] z=" ++ Text.padRight 3 (Text.decimal s.zeros) ++ " " ++ s.content

/-- A scene start as JSON. -/
def boundaryJson (s : Boundary.SceneStart) : Json :=
  .object [
    ("index", .int s.index),
    ("position", .int s.position),
    ("kind", .text s.kind.label),
    ("zeros", .int s.zeros),
    ("content", .text s.content)]

/-- The scene starts of a file. -/
def boundariesOf (b : Buffer) (start : Option Int) (extended : Bool) :
    Except Boundary.SearchFault (List Boundary.SceneStart) :=
  Boundary.scan b (if extended then .extended else .usual)
    ((start.map Int.toNat).getD BoundaryProfile.defaultStart)

/-! ## Simulation -/

/-- What came of a click. -/
def clickLine (p : Point) (outcome : Except Fault Reply) : String :=
  let found := match outcome with
    | .ok (.hotspot (some id)) => s!"hotspot {id}"
    | _ => "nothing"
  s!"Click ({p.x}, {p.y}): {found}"

/-- A call in a log. -/
def callLine? : LogEntry → Option String
  | .call c => some c.shown
  | .event _ => none

/-- A fault in a log. -/
def faultLine? : LogEntry → Option String
  | .event (.error verb args reason) => some ("! " ++ (Event.error verb args reason).shownData)
  | _ => none

/-- The shortest interval of a timer in a simulation, in milliseconds. -/
def minInterval : Int := 16

/-- How a simulation is presented: on the log only, and without waiting for anything. -/
def headless : Presentation := { pace := .scaled }

/-- What entering a scene does, and a click then. -/
def simulationLines (p : Project) (s : Scene) (click : Option Point) : List String :=
  let start := Machine.ofSession (Session.ofProject p headless minInterval)
  let entered := (start.perform (.goToScene (.index s.index))).1
  let (last, clicks) := match click with
    | none => (entered, [])
    | some point =>
        let (clicked, outcome) := entered.perform (.click point)
        (clicked, [clickLine point outcome])
  let log := last.session.log.toList
  clicks ++ log.filterMap callLine? ++ log.filterMap faultLine?

/-! ## Answers -/

/-- Why there is no answer. -/
inductive Failure
  | misuse (m : Misuse)
  | decode (e : DecodeError)
  | search (e : Boundary.SearchFault)
deriving DecidableEq, Repr

/-- An answer: what is printed, and the files that are left behind. -/
structure Answer where
  output : String
  files : List (String × ExportContent) := []

namespace Answer

/-- The answer that consists of some lines. -/
def ofLines (lines : List String) : Answer :=
  ⟨String.join (lines.map fun line => Text.plain line ++ "\n"), []⟩

/-- The answer that consists of a JSON value. -/
def ofJson (value : Json) : Answer :=
  ⟨value.indented ++ "\n", []⟩

end Answer

/-- The name and the version of the program. -/
def versionLine : String := "main, version 0.1.0"

/-- The answer to a query about a decoded project. -/
def answerProject (p : Project) : ProjectQuery → Except Misuse Answer
  | .info => .ok (.ofLines (infoLines p))
  | .variableTable => .ok (.ofLines (p.variableList.map variableLine))
  | .scenes => .ok (.ofLines (p.scenes.map sceneLine))
  | .scene n => (sceneOf p n).map fun s => .ofLines (sceneLines s)
  | .search part =>
      let found := p.scenes.flatMap (searchLines part)
      .ok (.ofLines (found ++ [s!"{found.length} match(es)"]))
  | .conditions => .ok (.ofLines (p.scenes.flatMap conditionLines))
  | .dump => .ok (.ofJson p.dump)
  | .simulate n click => (sceneOf p n).map fun s => .ofLines (simulationLines p s click)
  | .extract folder maps =>
      let mapCount := if maps then (Export.mappedScenes p).length else 0
      let line := s!"Exported {p.scenes.length} scenes, {mapCount} hotspot maps to {folder}"
      .ok { Answer.ofLines [line] with
        files := (Export.files p maps).map fun f => (Export.below folder f.path, f.content) }

/-- The answer to a query about a file. -/
def answer (b : Buffer) : Query → Except Failure Answer
  | .boundaries start extended json => do
      let found ← (boundariesOf b start extended).mapError .search
      if json then return .ofJson (Json.listOf boundaryJson found)
      let heading := s!"Detected {found.length} scenes (best-effort)"
      return .ofLines (heading :: found.map boundaryLine)
  | .project query => do
      let p ← (Project.decode b Record.defaultDistance).mapError .decode
      (answerProject p query).mapError .misuse

end PointAndClick.CommandLine
