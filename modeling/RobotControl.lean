import RobotControl.Main
import RobotControl.Saved.Runner
import RobotControl.World.Scripted
import RobotControl.Proofs.Execution.Addressing
import RobotControl.Proofs.Execution.Walk
import RobotControl.Proofs.Execution.Reaching
import RobotControl.Proofs.Execution.Recording
import RobotControl.Proofs.Execution.Residual
import RobotControl.Proofs.Execution.Resuming
import RobotControl.Proofs.Execution.Stepping
import RobotControl.Proofs.Source.Balance
import RobotControl.Proofs.Source.Splitting
import RobotControl.Proofs.Source.Grammar
import RobotControl.Proofs.Source.Reading
import RobotControl.Proofs.Decimal.RoundTrip
import RobotControl.Proofs.Source.Printing
import RobotControl.Proofs.Decimal.Rounding
import RobotControl.Proofs.Decimal.Bits
import RobotControl.Proofs.Decimal.Nearest
import RobotControl.Proofs.Decimal.Monotone
import RobotControl.Proofs.Decimal.Amounts
import RobotControl.Proofs.Arena.Scanning
import RobotControl.Proofs.Decimal.Shortest
import RobotControl.Proofs.Decimal.Positional
import RobotControl.Proofs.CommandLine.Formatting
import RobotControl.Proofs.Arena.Batteries
import RobotControl.Proofs.Arena.Acting
import RobotControl.Proofs.Arena.Building
import RobotControl.Proofs.Execution.Operating
import RobotControl.Proofs.Arena.Energy
import RobotControl.Proofs.Saved.Runners
import RobotControl.Proofs.Execution.History
import RobotControl.Proofs.Json.Numbers
import RobotControl.Proofs.Saved.Programs
import RobotControl.Proofs.Arena.Atomicity
import RobotControl.Proofs.Arena.Bookkeeping
import RobotControl.Proofs.Execution.Asking
import RobotControl.Proofs.Execution.Deciding
import RobotControl.Proofs.Source.Equality
import RobotControl.Proofs.Execution.Forward
import RobotControl.Proofs.Execution.Locating
import RobotControl.Proofs.Execution.Grouping
import RobotControl.Proofs.Execution.Settling
import RobotControl.Proofs.Arena.Aiming
import RobotControl.Proofs.Execution.Pausing
import RobotControl.Proofs.Execution.Rereading
import RobotControl.Proofs.Arena.Sensing
import RobotControl.Proofs.Arena.Absorbing
import RobotControl.Proofs.Source.Indentation
import RobotControl.Proofs.Source.Nesting
import RobotControl.Proofs.Source.Productions
import RobotControl.Proofs.Source.Levels
import RobotControl.Proofs.Source.Locality
import RobotControl.Proofs.Source.Tracing
import RobotControl.Proofs.Execution.Strictness
import RobotControl.Proofs.Text.Bytes
import RobotControl.Proofs.Source.Closing
import RobotControl.Proofs.Source.Slicing
