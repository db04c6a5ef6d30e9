import PointAndClick.Hotspot.Basic
import PointAndClick.Hotspot.Placement

/-!
# Assembling hotspots

Records arrive one after another; `Assembler` puts them together to hotspots. A shape closes the
hotspot that is open. In a flat run of records an image command opens the next hotspot, and the
commands before the first one are kept apart as the preamble.
-/

set_option autoImplicit false

namespace PointAndClick

/-- A hotspot to which records are still added. -/
structure OpenHotspot where
  offset : Nat
  eventType : Option Nat := none
  image : Placement := { path := "" }
  commands : List Record := []
  hover : List Record := []
deriving DecidableEq, Repr

namespace OpenHotspot

/-- Something was added to the hotspot. -/
def hasContent (h : OpenHotspot) : Bool :=
  !h.commands.isEmpty || !h.hover.isEmpty || h.image.path ≠ ""

/-- The hotspot with its number and its shape. -/
def finished (h : OpenHotspot) (id : Nat) (shape : Option Shape) : Hotspot where
  id := id
  image := h.image.path
  x := h.image.x
  y := h.image.y
  z := h.image.z
  commands := h.commands
  shape := shape
  hover := h.hover
  eventType := h.eventType
  offset := h.offset

end OpenHotspot

/-- The hotspots finished so far, and the open one. -/
structure Assembler where
  flat : Bool
  hotspots : List Hotspot := []
  preamble : List Record := []
  current : Option OpenHotspot := none
deriving DecidableEq, Repr

namespace Assembler

/-- Finishes the open hotspot. Without a shape it counts only if it has content. -/
def close (a : Assembler) (shape : Option Shape) : Assembler :=
  match a.current with
  | none => a
  | some h =>
      if shape.isNone && !h.hasContent then { a with current := none }
      else
        { a with
          hotspots := a.hotspots ++ [h.finished a.hotspots.length shape]
          current := none }

/-- Opens a hotspot, once the one before is finished. -/
def begin (a : Assembler) (eventType : Option Nat) (offset : Nat) : Assembler :=
  { a.close none with current := some { offset, eventType } }

/-- The open hotspot, or else a new one at the record. -/
def openAt (a : Assembler) (r : Record) : OpenHotspot :=
  a.current.getD { offset := r.offset }

/-- Adds an image command to a flat run: it gives the open hotspot its image if nothing was added
to that before, and opens the next one otherwise. -/
def addFlatImage (a : Assembler) (r : Record) : Assembler :=
  let image := Placement.parse r.text
  match a.current with
  | some h =>
      if h.image.path = "" && h.commands.isEmpty then { a with current := some { h with image } }
      else { a.close none with current := some { offset := r.offset, image } }
  | none => { a with current := some { offset := r.offset, image } }

/-- Adds a command record. Outside a flat run the first image command also gives the hotspot its
image. -/
def addCommand (a : Assembler) (r : Record) : Assembler :=
  let isImage := r.code? = some Command.playBmp
  if a.flat && isImage then a.addFlatImage r
  else if a.flat && a.current.isNone then { a with preamble := a.preamble ++ [r] }
  else
    let h := a.openAt r
    let image := if isImage && h.image.path = "" then Placement.parse r.text else h.image
    { a with current := some { h with image, commands := h.commands ++ [r] } }

/-- Adds a record of any kind: fillers are passed over, and a shape closes the hotspot. -/
def add (a : Assembler) (r : Record) : Assembler :=
  match r.payload with
  | .null | .marker => a
  | .shape _ points => a.close (some (Shape.ofPoints points))
  | .wrapper .. | .complex .. | .simple .. => a.addCommand r

/-- Adds a record that the pointer sets off. -/
def addHover (a : Assembler) (r : Record) : Assembler :=
  let h := a.openAt r
  { a with current := some { h with hover := h.hover ++ [r] } }

/-- Finishes the last hotspot, which then has no shape. -/
def finish (a : Assembler) : Assembler :=
  a.close none

end Assembler

end PointAndClick
