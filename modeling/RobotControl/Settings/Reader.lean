import RobotControl.Decimal.Literal
import RobotControl.Environment.Assignments
import RobotControl.Files
import RobotControl.Settings.Basic
import RobotControl.Settings.Format
import RobotControl.Settings.Layer

/-!
Reading settings.

Settings come in layers: the built-in ones lie under a file, and that lies under the environment
variables whose names begin with `variablePrefix`. What no layer mentions keeps its
built-in value, and what no setting has the name of is ignored.

Values are converted where that makes sense: numbers may be written as strings, and the words `on`
and `off` and truth values count as numbers.

`Settings.load` also carries out the file of assignments first, lets a variable name the file of
settings, and checks what it read. `Settings.loadFrom` does none of that.
-/

namespace RobotControl

namespace Settings

/-! ### Values -/

/-- Reads a text. -/
def text? : Data → Option String
  | .text value => some value
  | .boolean true => some "true"
  | .boolean false => some "false"
  | .integer n => some (toString n)
  | .float x => some (Decimal.plainText x)
  | .nothing | .list _ | .table _ => none

/-- The truth value that a word stands for, in any case. -/
def switch? (word : String) : Option Bool :=
  match word.toLower with
  | "true" | "on" | "yes" => some true
  | "false" | "off" | "no" => some false
  | _ => none

/-- Reads a number. -/
def number? : Data → Option Float
  | .float x => some x
  | .integer n => some (Float.ofInt n)
  | .boolean value => some (if value then 1.0 else 0.0)
  | .text value => match switch? value with
    | some value => some (if value then 1.0 else 0.0)
    | none => Decimal.read? value.toList
  | _ => none

/-- Reads a number of steps. A float is rounded, halves away from zero, and brought into the range
of 64 bits. -/
def count? : Data → Option Nat
  | .integer n => if 0 ≤ n then some n.toNat else none
  | .float x => some x.round.toUInt64.toNat
  | .boolean value => some value.toNat
  | .text value => match switch? value with
    | some value => some value.toNat
    | none => Decimal.readCount? value.toList
  | _ => none

/-- The fields of a section, in the order of `names`. A section is a table, or a list that begins
with the fields in their order. -/
def fields? (names : List String) : Option Data → Option (List (Option Data))
  | none => some (names.map fun _ => none)
  | some (.table entries) => some (names.map (Data.entry? entries))
  | some (.list items) => some ((List.range names.length).map (items[·]?))
  | some _ => none

/-- Reads a setting that keeps its value where there is none. -/
def field? {α : Type} (read? : Data → Option α) (field : Option Data) (value : α) : Option α :=
  match field with
  | none => some value
  | some v => read? v

/-- Reads the section of costs. -/
def costs? (section_ : Option Data) : Option Costs := do
  let standard : Costs := {}
  match ← fields? ["move_cost", "turn_cost", "shoot_cost", "capacity"] section_ with
  | [move, turn, shoot, capacity] =>
    return {
      move := ← field? number? move standard.move
      turn := ← field? number? turn standard.turn
      shoot := ← field? number? shoot standard.shoot
      capacity := ← field? number? capacity standard.capacity }
  | _ => none

/-- Reads settings from layers that were put together. -/
def ofData? (v : Data) : Option Settings := do
  let standard : Settings := {}
  match ← fields? ["log_level", "energy", "runner"] (some v) with
  | [logLevel, energy, runner] =>
    match ← fields? ["max_steps"] runner with
    | [maxSteps] =>
      return {
        logLevel := ← field? text? logLevel standard.logLevel
        costs := ← costs? energy
        maxSteps := ← field? count? maxSteps standard.maxSteps }
    | _ => none
  | _ => none

/-! ### The environment as a layer -/

/-- How the names of variables that are settings begin, in any case. -/
def variablePrefix : String := "roborally_"

/-- The key that the rest of a name stands for: two underscores are a point. -/
def keyOfName : List Char → List Char
  | '_' :: '_' :: cs => '.' :: keyOfName cs
  | c :: cs => c :: keyOfName cs
  | [] => []

/-- The value of a variable: a truth value or a number if it looks like one. -/
def valueOfText (text : String) : Data :=
  match text.toLower with
  | "true" => .boolean true
  | "false" => .boolean false
  | _ => match (Decimal.readInteger? text.toList).filter Data.isWord with
    | some n => .integer n
    | none => match Decimal.read? text.toList with
      | some x => .float x
      | none => .text text

/-- The settings among the variables. -/
def ofEnvironment (e : Environment) : Layer :=
  e.bindings.filterMap fun (name, text) =>
    let name := name.toLower.toList
    if variablePrefix.toList.isPrefixOf name then
      some (String.ofList (keyOfName (name.drop variablePrefix.length)), valueOfText text)
    else none

/-! ### Files -/

variable {m : Type → Type} [Monad m]

/-- The ending of a file's name: what follows its last point, if something stands before that. -/
def ending? (path : String) : Option String :=
  let name := ((path.splitOn "/").getLast?.getD "").splitOn "."
  if 2 < name.length || (name.length == 2 && name.head? != some "") then name.getLast? else none

/-- A path without slashes at its end, and without single points there. It leads to a name. -/
def trimPath? (path : String) : Option String :=
  let isIdle (segment : String) : Bool := segment == "" || segment == "."
  let segments := (path.splitOn "/").reverse.dropWhile isIdle
  if segments.head?.all (· == "..") then none else some (String.intercalate "/" segments.reverse)

/-- Looks for the first file of settings among those whose endings can be left out of a path. -/
def findEnding (files : FileReader m) (path : String) :
    List (String × Format) → m (Option (Format × String))
  | [] => return none
  | (ending, format) :: endings => do
    match ← files (path ++ "." ++ ending) with
    | .text content => return some (format, content)
    | _ => findEnding files path endings

/-- The file of settings at a path, and its format. The ending can be left out of the path, unless
there is a file without it. -/
def findFile (files : FileReader m) (path : String) : m (Option (Format × String)) := do
  match ← files path with
  | .text content => return (ending? path).bind fun ending =>
      (Format.ofEnding? ending).map fun format => (format, content)
  | _ => match trimPath? path with
    | some path => findEnding files path Format.endings
    | none => return none

/-- The file that is read if no other is named. -/
def standardPath : String := "roborally.toml"

/-- The layer in the file at a path. Without a path it is the standard file, and that need not be
there. -/
def readLayer (files : FileReader m) (path : Option String) : m (Except SettingsError Layer) := do
  match ← findFile files (path.getD standardPath) with
  | some (format, text) => match format.read? text with
    | some layer => return .ok layer
    | none => return .error .unreadable
  | none => return if path.isSome then .error .unreadable else .ok []

/-- Reads the settings from a file and the environment. -/
def loadFrom (files : FileReader m) (e : Environment) (path : Option String) :
    m (Except SettingsError Settings) := do
  match ← readLayer files path with
  | .error error => return .error error
  | .ok layer =>
    match ofData? ((ofEnvironment e).apply (layer.apply (.table []))) with
    | some settings => return .ok settings
    | none => return .error .mistyped

/-- The variable that names the file of settings. -/
def pathVariable : String := "ROBORALLY_CONFIG_PATH"

/-- The environment with what the file of assignments supplies. -/
def extendEnvironment (files : FileReader m) (e : Environment) : m Environment := do
  match ← files ".env" with
  | .text text => return e.extend text
  | _ => return e

/-- Reads the settings from a file that the environment may name, and refuses those that cannot be
used. -/
def loadFor (files : FileReader m) (e : Environment) : m (Except SettingsError Settings) := do
  let settings ← loadFrom files e (e.get? pathVariable)
  return settings.bind fun s => s.check.map fun _ => s

/-- Reads the settings for the program, with what the file of assignments supplies. -/
def load (files : FileReader m) (e : Environment) : m (Except SettingsError Settings) := do
  loadFor files (← extendEnvironment files e)

end Settings

end RobotControl
