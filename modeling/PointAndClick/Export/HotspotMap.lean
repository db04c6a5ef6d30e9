import PointAndClick.Scene.Basic

/-!
# Hotspot maps

A map is an image in which the value of a pixel says which hotspot of a scene is there: 0 is none,
and otherwise it is one more than the identifier. Hotspots are drawn from the lowest to the
highest, those of one height in their order, and cover what was drawn before. Which pixels a polygon
takes up is left to the library that draws: it is a parameter here.
-/

set_option autoImplicit false

namespace PointAndClick

/-- The map of a scene. -/
structure HotspotMap where
  width : Nat
  height : Nat
  scene : Scene
deriving Repr

namespace HotspotMap

/-- The identifiers from this one on have no colour. -/
def maxHotspots : Nat := 255

/-- How polygons are filled: whether the one with some corners takes up a pixel. -/
abbrev Filling : Type := List Point → Point → Bool

/-- The smallest rectangle around some points, a point in front of them. -/
def bounds (p : Point) (ps : List Point) : Shape :=
  .rectangle ((ps.map (·.x)).foldl min p.x) ((ps.map (·.y)).foldl min p.y)
    ((ps.map (·.x)).foldl max p.x) ((ps.map (·.y)).foldl max p.y)

/-- The filling by the rectangle around the corners, which is exact for rectangles with their sides
along the axes, and too large for other polygons. -/
def fillBounds : Filling
  | [], _ => false
  | corner :: corners, p => (bounds corner corners).contains p

/-- What is drawn for a shape takes up a pixel: a rectangle with its edges, a polygon as it is
filled, and nothing for fewer than three corners. -/
def takesUp (fill : Filling) : Shape → Point → Bool
  | .rectangle left top right bottom, p => (Shape.rectangle left top right bottom).contains p
  | .polygon corners, p => 3 ≤ corners.length && fill corners p

/-- The hotspots that are drawn, in their order. -/
def drawn (s : Scene) : List Hotspot :=
  (s.clickable.mergeSort fun a b => decide (a.z ≤ b.z)).filter fun h => h.id < maxHotspots

/-- A hotspot covers a pixel. -/
def covers (fill : Filling) (h : Hotspot) (p : Point) : Bool :=
  h.shape.any (takesUp fill · p)

/-- The value of a pixel after some hotspots are drawn. -/
def valueOf (fill : Filling) (hs : List Hotspot) (p : Point) : Nat :=
  hs.foldl (fun value h => if covers fill h p then h.id + 1 else value) 0

/-- The value of a pixel. -/
def pixel (m : HotspotMap) (x y : Nat) (fill : Filling := fillBounds) : Nat :=
  valueOf fill (drawn m.scene) ⟨x, y⟩

/-- The values of a row. -/
def row (m : HotspotMap) (y : Nat) (fill : Filling := fillBounds) : List Nat :=
  let hs := drawn m.scene
  (List.range m.width).map fun (x : Nat) => valueOf fill hs ⟨x, y⟩

/-- The values of all pixels, row by row. -/
def pixels (m : HotspotMap) (fill : Filling := fillBounds) : List Nat :=
  (List.range m.height).flatMap fun y => m.row y fill

/-- Values in a row as runs of equal ones. -/
def runsOf : List Nat → List (Nat × Nat)
  | [] => []
  | v :: vs =>
      match runsOf vs with
      | [] => [(v, 1)]
      | (w, n) :: rest => if v = w then (w, n + 1) :: rest else (v, 1) :: (w, n) :: rest

end HotspotMap

end PointAndClick
