import RobotControl.Decimal.Literal

/-!
Arguments of the command line.

```
[--config PATH] check FILE [--json]
[--config PATH] fmt FILE [--compact]
[--config PATH] run FILE --arena PATH [--steps N]
help [COMMAND]
```

`--config` can stand on either side of the command's name; the one after it counts. An option takes
its value from the next argument or from behind an equals sign. After `--` no argument is an option.
`-h` and `--help` ask for help.

Arguments are read from left to right. A value is looked at when the next option or file begins, or
at the end; an argument that does not belong there is reported before that.
-/

namespace RobotControl

/-- What the program is asked to do. -/
inductive Command where
  /-- Reports the shape of a program. -/
  | check (file : String) (asJson : Bool)
  /-- Prints a program in canonical form. -/
  | format (file : String) (compact : Bool)
  /-- Steps a program through an arena. -/
  | run (file arena : String) (steps : Option Nat)
deriving DecidableEq

structure Invocation where
  /-- The file of settings. -/
  settingsPath : Option String
  command : Command
deriving DecidableEq

/-- Why arguments ask for nothing that can be done. -/
inductive UsageError where
  /-- Help is asked for. -/
  | help
  /-- There are no arguments. -/
  | noArguments
  /-- There are options, but no command. -/
  | noCommand
  | unknownCommand
  | unknownArgument
  /-- A command lacks a file, or an option it cannot do without. -/
  | missingArgument
  /-- An option or a file is empty, or an option has no value. -/
  | missingValue
  /-- An option that takes no value has one. -/
  | surplusValue
  /-- A value is no number of steps. -/
  | invalidValue
  /-- An option is given twice. -/
  | repeated
deriving DecidableEq, Repr

namespace CommandLine

/-- What an option takes. -/
inductive OptionKind where
  | flag
  | path
  | count
deriving DecidableEq

/-- What may follow the name of a command, or stand before it. -/
structure Grammar where
  options : List (String × OptionKind)
  /-- A file must be named. -/
  takesFile : Bool
  /-- The names of commands, each of which ends this part of the arguments. -/
  commands : List String
  /-- The options that must be given. -/
  required : List String

def root : Grammar :=
  ⟨[("config", .path)], false, ["check", "fmt", "run", "help"], []⟩

def checkGrammar : Grammar :=
  ⟨[("config", .path), ("json", .flag)], true, [], []⟩

def formatGrammar : Grammar :=
  ⟨[("config", .path), ("compact", .flag)], true, [], []⟩

def runGrammar : Grammar :=
  ⟨[("config", .path), ("arena", .path), ("steps", .count)], true, [], ["arena"]⟩

/-- An argument by its form. -/
inductive Word where
  /-- Two dashes alone. -/
  | separator
  | long (name : String) (value : Option String)
  | short (letters : List Char)
  | plain (text : String)

/-- Splits a long option at its first equals sign. -/
def splitLong (cs : List Char) : Word :=
  let name := String.ofList (cs.takeWhile (· != '='))
  match cs.dropWhile (· != '=') with
  | _ :: value => .long name (some (String.ofList value))
  | [] => .long name none

/-- The form of an argument. A dash alone is plain. -/
def Word.ofText (text : String) : Word :=
  match text.toList with
  | ['-', '-'] => .separator
  | '-' :: '-' :: cs => splitLong cs
  | '-' :: c :: cs => .short (c :: cs)
  | _ => .plain text

/-- What was read last and is not looked at yet. -/
inductive Pending where
  | nothing
  /-- An option, and its value if it is there. -/
  | option (name : String) (value : Option String)
  | file (path : String)

/-- What was read so far. A flag has an empty value. -/
structure Reading where
  given : List (String × String)
  file : Option String
  pending : Pending

namespace Reading

def empty : Reading := ⟨[], none, .nothing⟩

def value? (r : Reading) (name : String) : Option String :=
  (r.given.find? fun entry => entry.1 == name).map (·.2)

/-- The next plain argument is the value of an option. -/
def awaitsValue (r : Reading) : Bool :=
  match r.pending with
  | .option _ none => true
  | _ => false

/-- A file was named already. -/
def hasFile (r : Reading) : Bool :=
  match r.pending with
  | .file _ => true
  | _ => r.file.isSome

/-- Takes an option with its value. -/
def accept (r : Reading) (kind : OptionKind) (name value : String) : Except UsageError Reading :=
  if (r.value? name).isSome then .error .repeated
  else if kind = .path ∧ value.isEmpty then .error .missingValue
  else if kind = .count ∧ (Decimal.readCount? value.toList).isNone then .error .invalidValue
  else .ok { r with given := r.given ++ [(name, value)], pending := .nothing }

end Reading

namespace Grammar

def kind? (g : Grammar) (name : String) : Option OptionKind :=
  (g.options.find? fun entry => entry.1 == name).map (·.2)

/-- Looks at what was read last. -/
def settle (g : Grammar) (r : Reading) : Except UsageError Reading :=
  match r.pending with
  | .nothing => .ok r
  | .file path =>
    if path.isEmpty then .error .missingValue
    else .ok { r with file := some path, pending := .nothing }
  | .option _ none => .error .missingValue
  | .option name (some value) => r.accept ((g.kind? name).getD .flag) name value

/-- Reads an argument that begins with two dashes. -/
def readLong (g : Grammar) (r : Reading) (name : String) (value : Option String) :
    Except UsageError Reading :=
  if name = "help" then
    if value.isSome then .error .surplusValue
    else do
      let _ ← g.settle r
      .error .help
  else match g.kind? name, value with
    | none, _ => .error .unknownArgument
    | some .flag, some _ => .error .surplusValue
    | some .flag, none => do (← g.settle r).accept .flag name ""
    | some kind, some value => do (← g.settle r).accept kind name value
    | some _, none => do return { ← g.settle r with pending := .option name none }

/-- Reads an argument that begins with one dash. -/
def readShort (g : Grammar) (r : Reading) (letters : List Char) : Except UsageError Reading :=
  if letters.head? = some 'h' then do
    let _ ← g.settle r
    .error .help
  else .error .unknownArgument

/-- Reads a plain argument that is no value. The flag says whether it stands after `--`. -/
def readPlain (g : Grammar) (trailing : Bool) (r : Reading) (text : String) :
    Except UsageError Reading :=
  if g.takesFile then
    if r.hasFile then .error .unknownArgument
    else do return { ← g.settle r with pending := .file text }
  else if trailing && g.commands.contains text then .error .unknownArgument
  else .error .unknownCommand

/-- Reads one argument. -/
def readWord (g : Grammar) (r : Reading) (text : String) : Word → Except UsageError Reading
  | .separator => .ok r
  | .long name value => g.readLong r name value
  | .short letters => g.readShort r letters
  | .plain _ => match r.pending with
    | .option name none => .ok { r with pending := .option name (some text) }
    | _ => g.readPlain false r text

/-- Reads arguments after `--`. -/
def readTrailing (g : Grammar) (r : Reading) (args : List String) : Except UsageError Reading :=
  args.foldlM (g.readPlain true) r

/-- Reads arguments up to the name of a command. Answers what is left from there on. -/
def readArguments (g : Grammar) (r : Reading) :
    List String → Except UsageError (Reading × List String)
  | [] => .ok (r, [])
  | arg :: args =>
    if !r.awaitsValue && g.commands.contains arg then .ok (r, arg :: args)
    else match Word.ofText arg with
      | .separator => (g.readTrailing r args).map fun r => (r, [])
      | word => do
        let r ← g.readWord r arg word
        g.readArguments r args

/-- Reads all the arguments of a command. -/
def readCommand (g : Grammar) (args : List String) : Except UsageError Reading := do
  let (r, _) ← g.readArguments .empty args
  let r ← g.settle r
  if r.file.isNone || g.required.any fun name => (r.value? name).isNone then
    .error .missingArgument
  else return r

end Grammar

/-- What a request for help about `topics` comes to. Commands have no commands of their own. -/
def helpError : (topics : List String) → UsageError
  | [] => .help
  | [topic] => if root.commands.contains topic then .help else .unknownCommand
  | _ => .unknownCommand

/-- Reads the name of a command and its arguments. -/
def readNamed (name : String) (args : List String) : Except UsageError (Reading × Command) := do
  match name with
  | "check" =>
    let r ← checkGrammar.readCommand args
    return (r, .check (r.file.getD "") (r.value? "json").isSome)
  | "fmt" =>
    let r ← formatGrammar.readCommand args
    return (r, .format (r.file.getD "") (r.value? "compact").isSome)
  | "run" =>
    let r ← runGrammar.readCommand args
    let steps := (r.value? "steps").bind fun text => Decimal.readCount? text.toList
    return (r, .run (r.file.getD "") ((r.value? "arena").getD "") steps)
  | _ => .error (helpError args)

end CommandLine

open CommandLine in
/-- Reads the arguments of the program. -/
def Invocation.read (args : List String) : Except UsageError Invocation := do
  let (before, rest) ← root.readArguments .empty args
  match rest with
  | name :: args =>
    let (after, command) ← readNamed name args
    let before ← root.settle before
    return ⟨(after.value? "config").or (before.value? "config"), command⟩
  | [] =>
    let before ← root.settle before
    .error (if before.given.isEmpty then .noArguments else .noCommand)

end RobotControl
