import TachoPrint.Motion.Move

/-!
# Instructions

What a G-code program can make the printer do.

## Main definitions

* `Instruction` — one executable instruction.
-/

namespace TachoPrint

/-- One executable instruction. -/
inductive Instruction where
  /-- Move the head. -/
  | move (m : Move)
  /-- Wait. -/
  | pause (micros : UInt64)
  /-- Choose how coordinates are read. -/
  | setPositioning (mode : Positioning)
  /-- Give the current place new coordinates. -/
  | setPosition (c : Coordinates)
  /-- Drive axes to their endstops. -/
  | home (axes : AxisSet)
  /-- Let motors turn freely. -/
  | release (axes : AxisSet)
  deriving DecidableEq, Inhabited

end TachoPrint
