import PointAndClick.CommandLine.Report
import PointAndClick.Export.Png

/-!
# The command line program

Reads the file that the arguments name, prints the answer and writes its files. Wrong arguments
end the program with the status 2, a file that cannot be decoded or searched with the status 1.
-/

set_option autoImplicit false

namespace PointAndClick.Program

/-- The bytes of a file of an export. -/
def exportBytes : ExportContent → ByteArray
  | .json value => value.indented.toUTF8
  | .map map => ⟨(Png.ofMap map).toArray⟩

/-- The folder of a path. -/
def folderOf (path : String) : String :=
  "/".intercalate ((path.splitOn "/").dropLast)

/-- Writes a file, in a folder that is made if it is not there. -/
def writeExport (path : String) (content : ExportContent) : IO Unit := do
  let folder := folderOf path
  if folder ≠ "" then IO.FS.createDirAll folder
  IO.FS.writeBinFile path (exportBytes content)

/-- Reads a file. -/
def readBuffer? (file : String) : IO (Option Buffer) := do
  try
    let bytes ← IO.FS.readBinFile file
    return some bytes.data
  catch _ => return none

/-- Says what is wrong, and gives the status of the program. -/
def complain (status : UInt32) (message : String) : IO UInt32 := do
  IO.eprintln s!"Error: {message}"
  return status

/-- Answers a query about a file. -/
def answerQuery (file : String) (query : CommandLine.Query) : IO UInt32 := do
  match ← readBuffer? file with
  | none => complain 2 (CommandLine.Misuse.noFile file).message
  | some b =>
      match CommandLine.answer b query with
      | .error (.misuse m) => complain 2 m.message
      | .error (.decode e) => complain 1 e.message
      | .error (.search e) => complain 1 e.message
      | .ok answer =>
          for (path, content) in answer.files do
            writeExport path content
          IO.print answer.output
          return 0

/-- Does what the arguments ask for. -/
def run (args : List String) : IO UInt32 := do
  match CommandLine.parse args with
  | .error m => complain 2 m.message
  | .ok .version =>
      IO.println CommandLine.versionLine
      return 0
  | .ok (.query file query) => answerQuery file query

end PointAndClick.Program

/-- The program. -/
def main (args : List String) : IO UInt32 := PointAndClick.Program.run args
