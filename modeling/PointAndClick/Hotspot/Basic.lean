import PointAndClick.Record.Basic

/-!
# Hotspots

An image or an area of a scene with the commands that a click and the pointer set off.
-/

set_option autoImplicit false

namespace PointAndClick

/-- A hotspot of a scene. One without a shape cannot be clicked: its commands run when the scene
is entered. -/
structure Hotspot where
  id : Nat
  image : String := ""
  x : Int := 0
  y : Int := 0
  z : Int := 0
  commands : List Record := []
  shape : Option Shape := none
  hover : List Record := []
  eventType : Option Nat := none
  offset : Nat := 0
deriving DecidableEq, Repr

namespace Hotspot

/-- The hotspot has no shape. -/
def isDangling (h : Hotspot) : Bool := h.shape.isNone

/-- The point lies in the hotspot's shape. -/
def contains (h : Hotspot) (p : Point) : Bool :=
  h.shape.any (·.contains p)

end Hotspot

end PointAndClick
