import PointAndClick.Export.HotspotMap
import PointAndClick.Json.Writer
import PointAndClick.Project.Json
import PointAndClick.Text.Word

/-!
# Exporting a project

An export is a set of files: the summary, the variables and the scenes of a project as JSON, a map
of each scene with hotspots that can be clicked, and an index of the maps.
-/

set_option autoImplicit false

namespace PointAndClick

/-- What a file of an export holds. -/
inductive ExportContent
  | json (value : Json)
  | map (map : HotspotMap)

/-- A file of an export, by its path in the folder of the export. -/
structure ExportFile where
  path : String
  content : ExportContent

namespace Export

/-- A name in which every character that is no letter, digit, point, underscore or hyphen is
replaced by an underscore. -/
def safeName (name : String) : String :=
  name.map fun c =>
    if Text.isAlphanumeric c || c == '.' || c == '_' || c == '-' then c else '_'

/-- The name of a scene's map. -/
def mapName (s : Scene) : String :=
  let number := Text.padLeft 3 '0' (Text.decimal s.number)
  let name := if s.name = "" then "unnamed" else s.name
  safeName s!"scene_{number}_{name}.png"

/-- The size of a project's maps: that of its display, or else the usual one. -/
def mapSize (h : Header) : Nat × Nat :=
  (if h.width = 0 then 640 else h.width, if h.height = 0 then 480 else h.height)

/-- The scenes that have a map. -/
def mappedScenes (p : Project) : List Scene :=
  p.scenes.filter fun s => !s.clickable.isEmpty

/-- The map of a scene. -/
def mapFile (p : Project) (s : Scene) : ExportFile :=
  let (width, height) := mapSize p.header
  ⟨"maps/" ++ mapName s, .map ⟨width, height, s⟩⟩

/-- The line of a scene in the index of maps. -/
def indexEntry (s : Scene) : String × Json :=
  (s!"scene:{s.number}", .object [
    ("map", .text ("maps/" ++ mapName s)),
    ("name", .text s.name),
    ("hotspots", Json.listOf (fun h => .int h.id) s.clickable)])

/-- The index of maps, empty without maps. -/
def index (p : Project) (maps : Bool) : Json :=
  .object (if maps then (mappedScenes p).map indexEntry else [])

/-- The files of an export, with or without maps. -/
def files (p : Project) (maps : Bool) : List ExportFile :=
  [⟨"metadata.json", .json p.summary⟩,
    ⟨"variables.json", .json p.variablesJson⟩,
    ⟨"scenes.json", .json (Json.listOf Scene.toJson p.scenes)⟩] ++
  (if maps then (mappedScenes p).map (mapFile p) else []) ++
  [⟨"xref.json", .json (index p maps)⟩]

end Export

end PointAndClick
