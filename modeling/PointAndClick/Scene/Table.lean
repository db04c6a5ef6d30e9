import PointAndClick.Hotspot.Assembler
import PointAndClick.Record.Decode
import PointAndClick.Scene.Basic

/-!
# Scene tables

The counted form of a project's scenes: a word with their number, then the scenes. A scene is a
descriptor — 50 bytes of name padded with zeros, a flag byte, the text with the background, 32
reserved bytes — and its records, which run to the next descriptor. That is found by its looks.
-/

set_option autoImplicit false

namespace PointAndClick

/-- The head of a scene in a table. -/
structure Descriptor where
  index : Nat
  name : String
  flag : Nat
  background : String
  offset : Nat
  stop : Nat
deriving DecidableEq, Repr

namespace Descriptor

/-- The bytes of a name. -/
def nameWidth : Nat := 50

/-- The reserved bytes behind the background. -/
def reservedWidth : Nat := 32

/-- The highest flag. -/
def maxFlag : Nat := 3

/-! ## Recognising a descriptor -/

/-- The byte is no control character. -/
def isPrintableByte (x : UInt8) : Bool := 0x20 ≤ x && x ≠ 0x7F

/-- The bytes are a printable text that is not empty, padded with zeros. -/
def isPaddedName (bytes : List UInt8) : Bool :=
  let name := bytes.takeWhile (· ≠ 0)
  !name.isEmpty && name.all isPrintableByte && (bytes.dropWhile (· ≠ 0)).all (· = 0)

/-- A descriptor may start at a position: name, flag and background are plausible and the whole
descriptor is inside the buffer. -/
def looksLike (b : Buffer) (pos : Nat) : Bool :=
  pos + 55 ≤ b.size && isPaddedName (b.slice pos nameWidth) && b.byteAt (pos + 50) ≤ maxFlag &&
    b.wordAt (pos + 51) ≤ Buffer.maxTextLength &&
      pos + 55 + b.wordAt (pos + 51) + reservedWidth ≤ b.size &&
        (b.slice (pos + 55) (b.wordAt (pos + 51))).all isPrintableByte

/-- The byte at a position may be the first one of a name. A search asks this first, since it rules
out most positions. -/
def mayStart (b : Buffer) (pos : Nat) : Bool := 0x20 ≤ b.byteAt pos && b.byteAt pos ≠ 0x7F

/-- The first position in a row of `count` from `pos` on at which a descriptor may start. -/
def search (b : Buffer) : Nat → Nat → Option Nat
  | 0, _ => none
  | count + 1, pos =>
      if mayStart b pos && looksLike b pos then some pos else search b count (pos + 1)

/-- The first position from `start` on at which a descriptor may start. No descriptor starts in the
last bytes, which are fewer than those of a name. -/
def next? (b : Buffer) (start : Nat) : Option Nat :=
  search b (b.size - nameWidth - start) start

/-! ## Reading descriptors -/

/-- Reads a descriptor. -/
def decode (index : Nat) : Decoder Descriptor := do
  let offset ← Decoder.position
  let name ← Decoder.paddedText nameWidth
  let flag ← Decoder.byte
  let background ← Decoder.textOrEmpty
  Decoder.skip reservedWidth
  let stop ← Decoder.position
  return { index, name, flag, background, offset, stop }

/-- Reads up to `count` descriptors. The first stands at `pos`; each later one is the first from
`pos` on that looks like one. `fuel` bounds their number. -/
def collect (b : Buffer) : Nat → Nat → Nat → Nat → List Descriptor
  | fuel + 1, count + 1, index, pos =>
      match (if index = 0 then some pos else next? b pos) with
      | none => []
      | some start =>
          match decode index b start with
          | .error _ => []
          | .ok (d, after) => d :: collect b fuel count (index + 1) after
  | _, _, _, _ => []

/-- The descriptors of a table of `count` scenes whose first one stands at a position. A descriptor
takes at least 87 bytes, so the size of the buffer bounds their number. -/
def all (b : Buffer) (count pos : Nat) : List Descriptor :=
  collect b (b.size / 87 + 1) count 0 pos

end Descriptor

/-! ## Reading the table -/

/-- A scene table. -/
structure SceneTable where
  count : Nat
  descriptors : List Descriptor
  scenes : List Scene
deriving Repr

namespace SceneTable

/-- The scene of a descriptor, whose records run to `stop`. -/
def sceneOf (b : Buffer) (maxDistance : Int) (d : Descriptor) (stop : Nat) : Scene :=
  let records := (Record.all b d.stop (some stop) maxDistance).1
  let assembled := (records.foldl Assembler.add { flat := true }).finish
  { index := d.index
    name := d.name
    flag := d.flag
    background := d.background
    hotspots := assembled.hotspots
    onEnter := assembled.preamble
    offset := d.offset }

/-- The scenes of some descriptors in a row, the last of which runs to the end of the buffer. -/
def scenesOf (b : Buffer) (maxDistance : Int) : List Descriptor → List Scene
  | [] => []
  | [d] => [sceneOf b maxDistance d b.size]
  | d :: e :: ds => sceneOf b maxDistance d e.offset :: scenesOf b maxDistance (e :: ds)

/-- Reads a scene table. It takes the rest of the buffer. -/
def decode (maxDistance : Int) : Decoder SceneTable := do
  let count ← Decoder.word
  fun b pos =>
    let descriptors := Descriptor.all b count pos
    .ok ({ count, descriptors, scenes := scenesOf b maxDistance descriptors }, b.size)

end SceneTable

end PointAndClick
