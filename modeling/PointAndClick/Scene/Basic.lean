import PointAndClick.Hotspot.Basic

/-!
# Scenes

A scene has a background, hotspots, links to its neighbours, and commands that run when it is
entered and left.
-/

set_option autoImplicit false

namespace PointAndClick

/-- The four ways out of a scene. -/
inductive Direction
  | forward
  | backward
  | left
  | right
deriving DecidableEq, Repr

/-- The indices of a scene's neighbours. -/
structure Links where
  forward : Option Int := none
  backward : Option Int := none
  left : Option Int := none
  right : Option Int := none
deriving DecidableEq, Repr

/-- The neighbour in a direction. -/
def Links.get (l : Links) : Direction → Option Int
  | .forward => l.forward
  | .backward => l.backward
  | .left => l.left
  | .right => l.right

/-- A scene of a project. -/
structure Scene where
  index : Nat
  name : String := ""
  flag : Nat := 0
  background : String := ""
  hotspots : List Hotspot := []
  links : Links := {}
  onEnter : List Record := []
  onExit : List Record := []
  offset : Nat := 0
  wave : String := ""
  properties : Nat := 0
deriving DecidableEq, Repr

namespace Scene

/-- The number by which authors know a scene: the first is 1. -/
def number (s : Scene) : Nat := s.index + 1

/-- The hotspots that can be clicked. -/
def clickable (s : Scene) : List Hotspot :=
  s.hotspots.filter (!·.isDangling)

/-- What runs when the scene is entered: its own commands, then those of the hotspots without a
shape. -/
def autoCommands (s : Scene) : List Record :=
  s.onEnter ++ (s.hotspots.filter (·.isDangling)).flatMap (·.commands)

/-- Every record of the scene: those for entering, those of the hotspots, those for leaving. -/
def records (s : Scene) : List Record :=
  s.onEnter ++ s.hotspots.flatMap (fun h => h.commands ++ h.hover) ++ s.onExit

end Scene

end PointAndClick
