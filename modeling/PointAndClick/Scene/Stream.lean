import PointAndClick.Hotspot.EventGroup
import PointAndClick.Scene.Basic
import PointAndClick.Text.FileStem

/-!
# Scene streams

The uncounted form of a project's scenes: 16 reserved bytes, then scenes as long as the next word
is a scene marker. A scene is

* its marker and 12 reserved bytes,
* the text with the path of its sound,
* a layout word and, in the order that the word says, 8 reserved bytes and the text with the path
  of its bitmap,
* a word of properties,
* zero words, and possibly the word -12 and more zero words,
* its event groups.
-/

set_option autoImplicit false

namespace PointAndClick

namespace Scene

/-- The words that start a scene; the second one stands before scenes with music. -/
def isMarker (word : Nat) : Bool := word = 0x01 || word = 0x81

/-- The word that may stand in the padding before the event groups. -/
def paddingSentinel : Int := -12

/-- Reads the bitmap block of a scene from its layout word on. -/
def decodeBitmap : Decoder String := do
  let start ← Decoder.position
  let layout ← Decoder.word
  if layout = 2 then
    Decoder.skip 8
    Decoder.text (.implausiblePath .bitmap)
  else if layout = 0 then
    let path ← Decoder.text (.implausiblePath .bitmap)
    Decoder.skip 8
    return path
  else Decoder.fail (.unknownLayout layout start)

/-- The position behind the padding of a scene. -/
def paddingEnd (b : Buffer) (pos : Nat) : Nat :=
  let after := (EventGroup.skipPadding b b.size pos).1
  if after + 4 ≤ b.size ∧ b.signedAt after = paddingSentinel then
    (EventGroup.skipPadding b b.size (after + 4)).1
  else after

/-- Reads the hotspots of a scene, padding before them included. -/
def decodeHotspots (maxDistance : Int) : Decoder (List Hotspot) := fun b pos =>
  let start : EventGroup.Progress := ⟨paddingEnd b pos, { flat := false }⟩
  let outcome := EventGroup.readAll b none maxDistance start
  .ok (outcome.progress.assembler.finish.hotspots, outcome.progress.pos)

/-- Reads a scene. It is called by the name of its bitmap; its sound, if it has one, is played
when the scene is entered. -/
def decode (maxDistance : Int) (index : Nat) : Decoder Scene := do
  let offset ← Decoder.position
  let flag ← Decoder.word
  Decoder.skip 12
  let waveOffset ← Decoder.position
  let wave ← Decoder.text (.implausiblePath .wave)
  let background ← decodeBitmap
  let properties ← Decoder.word
  let hotspots ← decodeHotspots maxDistance
  let onEnter := if wave = "" then [] else [⟨.simple Command.playWav wave, waveOffset⟩]
  return {
    index, name := Text.fileStem background, flag, background, hotspots, onEnter, offset, wave,
    properties }

end Scene

/-! ## Reading the stream -/

/-- A scene stream, and why reading it stopped before its end. -/
structure SceneStream where
  scenes : List Scene
  start : Nat
  stop : Nat
  errors : List String := []
deriving Repr

namespace SceneStream

/-- The bytes before the first scene. -/
def reservedWidth : Nat := 16

/-- Reads scenes from a position on. `done` is the number of those before, `fuel` bounds the
number of those to come. -/
def collect (b : Buffer) (maxDistance : Int) : Nat → Nat → Nat → List Scene × Nat × List String
  | 0, _, pos => ([], pos, [])
  | fuel + 1, done, pos =>
      let start := (EventGroup.skipPadding b b.size pos).1
      if b.size < start + 4 ∨ !Scene.isMarker (b.wordAt start) then ([], start, [])
      else
        match Scene.decode maxDistance done b start with
        | .error e =>
            ([], start, [s!"Scene {done} at 0x{Text.hexadecimal start}: {e.message}"])
        | .ok (scene, after) =>
            let (scenes, stop, errors) := collect b maxDistance fuel (done + 1) after
            (scene :: scenes, stop, errors)

/-- Reads the scene stream at a position. A scene takes at least 40 bytes, so the size of the
buffer bounds their number. -/
def read (b : Buffer) (maxDistance : Int) (start : Nat) : SceneStream :=
  if b.size < start + reservedWidth then
    { scenes := [], start, stop := start,
      errors := [s!"Scene stream at 0x{Text.hexadecimal start} shorter than its reserved prefix"] }
  else
    let (scenes, stop, errors) :=
      collect b maxDistance (b.size / 40 + 1) 0 (start + reservedWidth)
    { scenes, start, stop, errors }

end SceneStream

end PointAndClick
