import TachoPrint.Binary64.Arith

/-!
# Positions and moves

## Main definitions

* `Position` — where the head is, in millimetres, with the filament fed so far.
* `Coordinates` — a choice of coordinates, as a command gives them.
* `Positioning` — whether coordinates are places or steps.
* `Move` — a linear move: coordinates and a feed rate.
* `AxisSet` — the axes that a homing or release command names.
-/

namespace TachoPrint

/-- The logical position of the print head in millimetres. -/
structure Position where
  /-- Across the bed. -/
  x : Binary64
  /-- Along the bed. -/
  y : Binary64
  /-- Above the bed. -/
  z : Binary64
  /-- Filament fed so far. -/
  e : Binary64
  deriving DecidableEq, Inhabited

/-- The position of a head that has just been built. -/
def Position.origin : Position := ⟨0, 0, 0, 0⟩

/-- The coordinates that a command gives; the others are left out. -/
structure Coordinates where
  x : Option Binary64 := none
  y : Option Binary64 := none
  z : Option Binary64 := none
  e : Option Binary64 := none
  deriving DecidableEq, Inhabited

/-- True when no coordinate is given. -/
def Coordinates.isEmpty (c : Coordinates) : Bool :=
  c.x.isNone && c.y.isNone && c.z.isNone && c.e.isNone

/-- How the coordinates of a move are read. -/
inductive Positioning where
  /-- As places. -/
  | absolute
  /-- As steps from the current place. -/
  | relative
  deriving DecidableEq, Repr, Inhabited

/-- The coordinate that a move leads to: what is left out stays, or adds nothing. -/
def Positioning.resolve (mode : Positioning) (current : Binary64) (given : Option Binary64) :
    Binary64 :=
  match mode with
  | .absolute => given.getD current
  | .relative => current + given.getD 0

/-- A linear move. -/
structure Move where
  /-- Where the move leads. -/
  goal : Coordinates := {}
  /-- The head speed from here on, in millimetres per second. -/
  feed : Option Binary64 := none
  deriving DecidableEq, Inhabited

/-- A choice of the three axes. -/
structure AxisSet where
  x : Bool
  y : Bool
  z : Bool
  deriving DecidableEq, Repr, Inhabited

namespace AxisSet

/-- No axis. -/
def empty : AxisSet := ⟨false, false, false⟩

/-- Every axis. -/
def all : AxisSet := ⟨true, true, true⟩

/-- True when every axis is chosen. -/
def isAll (s : AxisSet) : Bool := s.x && s.y && s.z

/-- True when no axis is chosen. -/
def isEmpty (s : AxisSet) : Bool := !(s.x || s.y || s.z)

end AxisSet

end TachoPrint
