import PointAndClick.Project.Basic
import PointAndClick.Record.Json

/-!
# Projects as JSON

The summary of a project, and its scenes in full.
-/

set_option autoImplicit false

namespace PointAndClick

namespace Point

/-- A point as a list of two numbers. -/
def toJson (p : Point) : Json := .list [.int p.x, .int p.y]

end Point

namespace Shape

/-- A shape with its kind. -/
def toJson : Shape → Json
  | rectangle left top right bottom =>
      .object [("type", .text "rect"), ("bounds", Json.listOf .int [left, top, right, bottom])]
  | polygon points =>
      .object [("type", .text "polygon"), ("points", Json.listOf Point.toJson points)]

end Shape

namespace Hotspot

/-- A hotspot with its commands. -/
def toJson (h : Hotspot) : Json :=
  .object [
    ("id", .int h.id),
    ("image", .text h.image),
    ("position", Json.listOf .int [h.x, h.y, h.z]),
    ("event_type", Json.ofNat? h.eventType),
    ("offset", .int h.offset),
    ("commands", Json.listOf Record.toJson h.commands),
    ("hover", Json.listOf Record.toJson h.hover),
    ("shape", (h.shape.map Shape.toJson).getD .null)]

end Hotspot

namespace Scene

/-- A scene with its hotspots and commands. -/
def toJson (s : Scene) : Json :=
  .object [
    ("index", .int s.index),
    ("name", .text s.name),
    ("flag", .int s.flag),
    ("background", .text s.background),
    ("wave", .text s.wave),
    ("properties", .int s.properties),
    ("offset", .int s.offset),
    ("links", .object [
      ("forward", Json.ofInt? s.links.forward),
      ("backward", Json.ofInt? s.links.backward),
      ("left", Json.ofInt? s.links.left),
      ("right", Json.ofInt? s.links.right)]),
    ("on_enter", Json.listOf Record.toJson s.onEnter),
    ("on_exit", Json.listOf Record.toJson s.onExit),
    ("hotspots", Json.listOf Hotspot.toJson s.hotspots)]

/-- The line of a scene in a summary. -/
def summary (s : Scene) : Json :=
  .object [
    ("index", .int s.index),
    ("name", .text s.name),
    ("background", .text s.background),
    ("wave", .text s.wave),
    ("hotspots", .int s.hotspots.length),
    ("offset", .int s.offset)]

end Scene

namespace Header

/-- The fields of a header that a summary shows. -/
def summary (h : Header) : Json :=
  .object [
    ("magic", .text h.magic),
    ("version", .text h.version),
    ("format_type", .int h.formatType),
    ("project_name", .text h.projectName),
    ("editor", .text h.editor),
    ("serial", .text h.serial),
    ("project_id", .text h.projectId),
    ("registry", .text h.registry),
    ("width", .int h.width),
    ("height", .int h.height),
    ("depth", .int h.depth),
    ("dll_path", .text h.dllPath),
    ("var_count", .int h.variableCount)]

end Header

namespace Project

/-- The variables with their values; of several with one name the last counts. -/
def variablesJson (p : Project) : Json :=
  Json.ofFields (p.variableList.map fun v => (v.name, .int v.value))

/-- The fields of a summary, with the given scenes. -/
def summaryFields (p : Project) (scenes : Json) : List (String × Json) := [
  ("header", p.header.summary),
  ("dialect", .text p.dialect.letter),
  ("size", .int p.size),
  ("header_end", .int p.headerEnd),
  ("variables_end", .int p.variablesEnd),
  ("variables", p.variablesJson),
  ("scene_count", .int p.scenes.length),
  ("hotspot_count", .int p.hotspotCount),
  ("scenes", scenes),
  ("errors", Json.listOf .text p.errors)]

/-- The summary of a project. -/
def summary (p : Project) : Json :=
  .object (p.summaryFields (Json.listOf Scene.summary p.scenes))

/-- The summary with the scenes in full. -/
def dump (p : Project) : Json :=
  .object (p.summaryFields (Json.listOf Scene.toJson p.scenes))

end Project

end PointAndClick
