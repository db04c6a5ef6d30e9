import PointAndClick.Project.Basic
import PointAndClick.Scene.Stream
import PointAndClick.Scene.Table

/-!
# Decoding a project

The header, the variable table and the scenes of a whole file. Only a header that is cut short is
an error; what goes wrong behind it is noted in the project.
-/

set_option autoImplicit false

namespace PointAndClick

/-- Links each scene to the one after it and the one before it. -/
def linkSequentially (scenes : List Scene) : List Scene :=
  scenes.mapIdx fun i s =>
    { s with
      links :=
        { forward := if i + 1 < scenes.length then some (i + 1 : Nat) else none
          backward := if 0 < i then some (i - 1 : Nat) else none } }

namespace Project

/-- The scenes from a position on, and what is wrong with them. -/
def decodeScenes (b : Buffer) (maxDistance : Int) (dialect : Dialect) (pos : Nat) :
    List Scene × List String :=
  match dialect with
  | .table =>
      match SceneTable.decode maxDistance b pos with
      | .error e => ([], [e.message])
      | .ok (table, _) =>
          (table.scenes,
            if table.scenes.length < table.count then
              [s!"Scene table lists {table.count} scenes, decoded {table.scenes.length}"]
            else [])
  | .stream =>
      let stream := SceneStream.read b maxDistance pos
      (stream.scenes, stream.errors)

/-- What is wrong with a variable table that ends at a position. -/
def variableErrors (count found stop : Nat) : List String :=
  if found < count then
    [s!"Variable table truncated: {found} of {count} at 0x{Text.hexadecimal stop}"]
  else []

/-- Decodes a file. -/
def decode (b : Buffer) (maxDistance : Int) : Except DecodeError Project := do
  let (header, headerEnd) ← Header.decode b 0
  let (variableList, variablesEnd) := Variable.table b header.variableCount headerEnd
  let dialect := Dialect.detect b variablesEnd
  let (scenes, sceneErrors) := decodeScenes b maxDistance dialect variablesEnd
  return {
    header, variableList, dialect, headerEnd, variablesEnd
    scenes := linkSequentially scenes
    size := b.size
    errors := variableErrors header.variableCount variableList.length variablesEnd ++ sceneErrors }

end Project

end PointAndClick
