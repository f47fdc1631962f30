import RobotControl.CommandLine.Response

/-!
The program.

It prints the answer to its arguments on standard output, or a failure on standard error. The exit
code is 0 where it did what it was asked for, 2 if the arguments were wrong, and 1 otherwise.
-/

namespace RobotControl.CommandLine

/-- Reads files from the file system. -/
def systemFiles : FileReader IO := fun path => do
  try
    return .text (← IO.FS.readFile path)
  catch error => match error with
    | .noFileOrDirectory .. => return .missing
    | _ => return .unreadable

/-- The variable in an entry of the process environment. -/
def variableOf (entry : String) : Option (String × String) :=
  match entry.splitOn "=" with
  | name :: value :: more => some (name, String.intercalate "=" (value :: more))
  | _ => none

/-- The environment of the process, where the system shows it as a file. -/
def systemEnvironment : IO Environment := do
  match ← systemFiles "/proc/self/environ" with
  | .text text => return ⟨(text.splitOn "\x00").filterMap variableOf⟩
  | _ => return .empty

/-- The exit code for a failure. -/
def exitCode : Failure → UInt32
  | .usage .help => 0
  | .usage _ => 2
  | _ => 1

end RobotControl.CommandLine

open RobotControl RobotControl.CommandLine in
def main (args : List String) : IO UInt32 := do
  match ← (respond systemFiles (← systemEnvironment) args).run with
  | .ok text =>
    IO.print text
    return 0
  | .error failure =>
    IO.eprintln failure.message
    for cause in failure.causes do
      IO.eprintln ("  " ++ cause)
    return exitCode failure
