import RobotControl.Arena.Dynamics
import RobotControl.CommandLine.Arguments
import RobotControl.Execution.Runner
import RobotControl.Layout.Reader
import RobotControl.Saved.Program
import RobotControl.Settings.LogLevel
import RobotControl.Settings.Reader
import RobotControl.Source.Fingerprint
import RobotControl.Source.Reader

/-!
What the program answers to its arguments.

The answer is a text to print or the first failure. The arguments are looked at first, then the
settings and the log level, and only then what the command needs: the program, the layout and the
arena, in this order.
-/

namespace RobotControl

/-- Why there is nothing to print. -/
inductive Failure where
  | usage (error : UsageError)
  | settings (error : SettingsError)
  | logLevel (text : String)
  /-- A program cannot be read; the flag says that there is no such file. -/
  | programFile (path : String) (isMissing : Bool)
  | program (path : String) (error : SyntaxError)
  /-- A layout cannot be read; the flag says that there is no such file. -/
  | layoutFile (path : String) (isMissing : Bool)
  | layout (path : String)
  | arena (error : ArenaError)
  | runner (error : RunnerError)

namespace UsageError

def message : UsageError → String
  | help | noArguments => "usage: roborally [--config PATH] check|fmt|run FILE [OPTIONS]"
  | noCommand => "a command is missing: check, fmt or run"
  | unknownCommand => "there is no such command"
  | unknownArgument => "an argument does not belong here"
  | missingArgument => "a file or an option is missing"
  | missingValue => "a value is missing"
  | surplusValue => "an option takes no value"
  | invalidValue => "a value is no number of steps"
  | repeated => "an option is given twice"

end UsageError

namespace Failure

def message : Failure → String
  | usage error => error.message
  | settings error => error.message
  | logLevel text => "Invalid log_level '" ++ text ++ "'"
  | programFile path _ => "Failed to read program " ++ path
  | program path _ => "Failed to parse " ++ path
  | layoutFile path _ => "Failed to read arena layout " ++ path
  | layout path => "Invalid arena layout " ++ path
  | arena error => error.message
  | runner error => error.message

/-- What is behind a failure. -/
def causes : Failure → List String
  | programFile _ isMissing | layoutFile _ isMissing => if isMissing then ["not found"] else []
  | program _ error => [error.message]
  | layout _ => ["invalid arena layout"]
  | _ => []

end Failure

namespace CommandLine

/-! ### Texts -/

/-- Blanks in front of a text, up to a width. -/
def alignRight (width : Nat) (text : String) : String :=
  String.ofList (List.replicate (width - text.length) ' ') ++ text

/-- Blanks behind a text, up to a width. -/
def alignLeft (width : Nat) (text : String) : String :=
  text ++ String.ofList (List.replicate (width - text.length) ' ')

/-- The lines of a report, each with its line end. -/
def lines (texts : List String) : String :=
  String.join (texts.map (· ++ "\n"))

/-- The report on the shape of a program. -/
def summary (p : Program) : String :=
  s!"ok: {p.stepCount} primitive actions, fingerprint {p.fingerprint}"

/-- A line of the journal, with its number. -/
def journalLine (number : Nat) (attempt : Attempt) : String :=
  alignRight 5 (toString number) ++ "  " ++ alignLeft 22 attempt.action.keyword ++ " " ++
    attempt.outcome.message

/-- The report on an arena after a run. -/
def arenaReport (a : Arena) : String :=
  let journal := a.journal.toList
  let robot := a.robot
  lines ((journal.zipIdx 1).map fun (attempt, number) => journalLine number attempt) ++
    lines ["", "Robot at " ++ robot.cell.text ++ " facing " ++ robot.facing.title ++ ", energy " ++
      Decimal.plainText robot.energy, s!"Steps delivered: {journal.length}"]

/-! ### Commands -/

variable {m : Type → Type} [Monad m]

/-- Reads a program from a file. -/
def readProgramFile (files : FileReader m) (path : String) : ExceptT Failure m Program := do
  match ← files path with
  | .text text => match Program.read text with
    | .ok p => return p
    | .error error => throw (.program path error)
  | .missing => throw (.programFile path true)
  | .unreadable => throw (.programFile path false)

/-- Reads a layout from a file. -/
def readLayoutFile (files : FileReader m) (path : String) : ExceptT Failure m Layout := do
  match ← files path with
  | .text text => match Layout.read? text with
    | some layout => return layout
    | none => throw (.layout path)
  | .missing => throw (.layoutFile path true)
  | .unreadable => throw (.layoutFile path false)

/-- The arena of a layout after a number of steps of a program. -/
def runIn (p : Program) (layout : Layout) (costs : Costs) (steps : Nat) : Except Failure Arena := do
  let arena ← (layout.build costs).mapError .arena
  let (_, _, arena) ← ((Runner.ofProgram p).stepN steps arena).mapError .runner
  return arena

/-- Carries out a command and answers what it prints. -/
def carryOut (files : FileReader m) (settings : Settings) : Command → ExceptT Failure m String
  | .check file asJson => do
    let p ← readProgramFile files file
    return lines (if asJson then [p.toJson.prettyText] else [p.text, summary p])
  | .format file compact => do
    let p ← readProgramFile files file
    return lines [if compact then p.text else p.layoutText]
  | .run file arena steps => do
    let p ← readProgramFile files file
    let layout ← readLayoutFile files arena
    match runIn p layout settings.costs (steps.getD settings.maxSteps) with
    | .ok arena => return arenaReport arena
    | .error failure => throw failure

/-- A variable sets what is logged, so that the settings need not. -/
def setsLogLevel (e : Environment) : Bool :=
  (e.get? "RUST_LOG").any LogLevel.isValid

/-- What the program prints for its arguments. A file of settings that they name takes the place of
the one in the environment. -/
def respond (files : FileReader m) (e : Environment) (args : List String) :
    ExceptT Failure m String := do
  match Invocation.read args with
  | .error error => throw (.usage error)
  | .ok invocation =>
    let e := match invocation.settingsPath with
      | some path => e.set Settings.pathVariable path
      | none => e
    let e ← ExceptT.lift (Settings.extendEnvironment files e)
    match ← ExceptT.lift (Settings.loadFor files e) with
    | .error error => throw (.settings error)
    | .ok settings =>
      if setsLogLevel e || LogLevel.isValid settings.logLevel then
        carryOut files settings invocation.command
      else throw (.logLevel settings.logLevel)

end CommandLine

end RobotControl
