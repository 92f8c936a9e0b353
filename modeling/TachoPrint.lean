import TachoPrint.Binary64.Bits
import TachoPrint.Main
import TachoPrint.Proofs.Machine.Action
import TachoPrint.Proofs.Machine.Commands
import TachoPrint.Proofs.Machine.Steady
import TachoPrint.Proofs.Machine.Program
import TachoPrint.Proofs.Machine.Homing
import TachoPrint.Proofs.Machine.Rest
import TachoPrint.Proofs.Binary64.Order
import TachoPrint.Proofs.Motion.Plan
import TachoPrint.Proofs.Machine.Range
import TachoPrint.Proofs.Machine.Obedience
import TachoPrint.Proofs.Machine.Endings
import TachoPrint.Proofs.Machine.Simulation
import TachoPrint.Proofs.Machine.Encoder
import TachoPrint.Proofs.Machine.Toggling
import TachoPrint.Proofs.Machine.DryRun
import TachoPrint.Proofs.Machine.Twins
import TachoPrint.Proofs.Binary64.Value
import TachoPrint.Proofs.Machine.Drift
import TachoPrint.Proofs.Gcode.Numbers
import TachoPrint.Proofs.Gcode.Lines
import TachoPrint.Proofs.Gcode.Json
import TachoPrint.Proofs.Json.Number
import TachoPrint.Proofs.Binary64.Zero
import TachoPrint.Proofs.Machine.Place
import TachoPrint.Proofs.Machine.Filament
import TachoPrint.Proofs.Machine.LeftOut
import TachoPrint.Proofs.Machine.FeedRates
import TachoPrint.Proofs.Machine.Orders
import TachoPrint.Proofs.Machine.MoveEffect
import TachoPrint.Proofs.Toml.Reader
import TachoPrint.Proofs.Setup.RoundTrip
import TachoPrint.Proofs.Command.Session
import TachoPrint.Proofs.Binary64.Monotone
import TachoPrint.Proofs.Motion.Gearing
import TachoPrint.Proofs.Machine.Polling
import TachoPrint.Proofs.Machine.HomingProtocol
import TachoPrint.Proofs.Machine.HomingOverflow
import TachoPrint.Proofs.Machine.Refusals
import TachoPrint.Proofs.Machine.SlowMoves
import TachoPrint.Proofs.Gcode.Parameters
import TachoPrint.Proofs.Setup.Acceptance
import TachoPrint.Proofs.Machine.Assembly
import TachoPrint.Proofs.Machine.JointCommands
import TachoPrint.Proofs.Machine.Standstill
import TachoPrint.Proofs.Machine.StopActions
import TachoPrint.Proofs.Gcode.Spelling
import TachoPrint.Proofs.Gcode.Pauses
import TachoPrint.Proofs.Machine.Waiting
import TachoPrint.Proofs.Machine.AxisByAxis
import TachoPrint.Proofs.Machine.RelativeMoves
import TachoPrint.Proofs.Machine.Repetition
import TachoPrint.Proofs.Binary64.Directions
import TachoPrint.Proofs.Motion.Contract
import TachoPrint.Proofs.Binary64.Magnitude
import TachoPrint.Proofs.Binary64.Relative
import TachoPrint.Proofs.Motion.Direction
import TachoPrint.Proofs.Motion.Inverse
import TachoPrint.Proofs.Machine.Sleeping
