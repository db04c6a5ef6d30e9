import PointAndClick.Decoder

/-!
# The header of a project file

Five flag bytes, then texts and words in a fixed order, the number of variables last. An absent
text is empty.
-/

set_option autoImplicit false

namespace PointAndClick

/-- What a project file says about itself. -/
structure Header where
  flags : List UInt8 := []
  magic : String := ""
  version : String := ""
  formatType : Nat := 0
  projectName : String := ""
  editor : String := ""
  serial : String := ""
  projectId : String := ""
  registry : String := ""
  width : Nat := 0
  height : Nat := 0
  depth : Nat := 0
  flag : Nat := 0
  reserved : Nat × Nat × Nat := (0, 0, 0)
  dllPath : String := ""
  variableCount : Nat := 0
deriving DecidableEq, Repr

namespace Header

/-- Reads a header. -/
def decode : Decoder Header := do
  let flags ← Decoder.bytes 5
  let magic ← Decoder.textOrEmpty
  let version ← Decoder.textOrEmpty
  let formatType ← Decoder.word
  let projectName ← Decoder.textOrEmpty
  let editor ← Decoder.textOrEmpty
  let serial ← Decoder.textOrEmpty
  let projectId ← Decoder.textOrEmpty
  let registry ← Decoder.textOrEmpty
  let width ← Decoder.word
  let height ← Decoder.word
  let depth ← Decoder.word
  let flag ← Decoder.word
  let reserved₁ ← Decoder.word
  let reserved₂ ← Decoder.word
  let reserved₃ ← Decoder.word
  let dllPath ← Decoder.textOrEmpty
  let variableCount ← Decoder.word
  return {
    flags, magic, version, formatType, projectName, editor, serial, projectId, registry, width,
    height, depth, flag, reserved := (reserved₁, reserved₂, reserved₃), dllPath, variableCount }

end Header

end PointAndClick
