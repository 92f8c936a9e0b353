import TachoPrint.Binary64.Integer

/-!
# Gearing

An axis is characterised by the degrees its motor turns for a millimetre of travel,
and a motor by the counts its encoder reports for a full turn.  The same conversion
serves speeds: millimetres per second to counts per second.

## Main definitions

* `Gearing` — the two ratios.
* `Gearing.toDegrees`, `Gearing.degreesToCounts`, `Gearing.toCounts` — towards the
  motor.
* `Gearing.toMillimetres` — back from the motor.
-/

namespace TachoPrint

/-- The ratios between travel and encoder counts. -/
structure Gearing where
  /-- Motor degrees per millimetre of travel. -/
  degreesPerMm : Binary64
  /-- Encoder counts per full turn. -/
  countsPerTurn : Int32
  deriving DecidableEq

namespace Gearing

/-- The degrees in a full turn. -/
def fullTurn : Binary64 := 360

/-- Millimetres of travel to degrees of the motor. -/
def toDegrees (g : Gearing) (mm : Binary64) : Binary64 := mm * g.degreesPerMm

/-- Degrees of the motor to the nearest whole encoder count. -/
def degreesToCounts (g : Gearing) (degrees : Binary64) : Int32 :=
  (degrees * (Binary64.ofInt g.countsPerTurn.toInt / fullTurn)).toInt32

/-- Millimetres to encoder counts. -/
def toCounts (g : Gearing) (mm : Binary64) : Int32 := g.degreesToCounts (g.toDegrees mm)

/-- Encoder counts back to millimetres; zero where the ratios have no inverse. -/
def toMillimetres (g : Gearing) (counts : Int32) : Binary64 :=
  if g.degreesPerMm.equals 0 || g.countsPerTurn == 0 then 0
  else
    Binary64.ofInt counts.toInt * fullTurn / Binary64.ofInt g.countsPerTurn.toInt / g.degreesPerMm

end Gearing

end TachoPrint
