import PointAndClick.Number.Binary64

/-!
# Points and shapes

The clickable areas. A rectangle includes its four edges; a polygon is hit by the even-odd rule,
where the crossing of a slanted edge is computed in double precision.
-/

set_option autoImplicit false

namespace PointAndClick

/-- A point of the screen. -/
structure Point where
  x : Int
  y : Int
deriving DecidableEq, Repr, Inhabited

/-- An area of the screen. -/
inductive Shape
  | rectangle (left top right bottom : Int)
  | polygon (points : List Point)
deriving DecidableEq, Repr

namespace Shape

/-- The rectangle with two opposite corners. -/
def ofCorners (a b : Point) : Shape :=
  .rectangle (min a.x b.x) (min a.y b.y) (max a.x b.x) (max a.y b.y)

/-- Two points are the corners of a rectangle, any other number those of a polygon. -/
def ofPoints : List Point → Shape
  | [a, b] => ofCorners a b
  | points => .polygon points

/-- The points that describe a shape. -/
def points : Shape → List Point
  | rectangle left top right bottom => [⟨left, top⟩, ⟨right, bottom⟩]
  | polygon points => points

/-! ## Hits -/

/-- Where the horizontal line at height `y` crosses the line through two points, with the quotient
and the sum each rounded to double precision. -/
def crossing (a b : Point) (y : Int) : Rat :=
  let slope := Binary64.nearest (((b.x - a.x) * (y - a.y) : Int) / ((b.y - a.y : Int) : Rat))
  Binary64.nearest (slope + Binary64.nearest a.x)

/-- The ray from a point to the right crosses the edge between two points. -/
def crosses (p a b : Point) : Bool :=
  (decide (p.y < a.y) != decide (p.y < b.y)) && decide ((p.x : Rat) < crossing a b p.y)

/-- The edges of a closed polygon, each as a point and the point before it. -/
def edges (points : List Point) : List (Point × Point) :=
  match points.getLast? with
  | none => []
  | some last => points.zip (last :: points)

/-- The point lies in the shape. -/
def contains (shape : Shape) (p : Point) : Bool :=
  match shape with
  | rectangle left top right bottom =>
      decide (left ≤ p.x) && decide (p.x ≤ right) && decide (top ≤ p.y) && decide (p.y ≤ bottom)
  | polygon points =>
      decide (3 ≤ points.length) &&
        (edges points).foldl (fun inside (a, b) => inside != crosses p a b) false

end Shape

end PointAndClick
