import RobotControl.Data.Basic
import RobotControl.Ini.Reader
import RobotControl.Json.Reader
import RobotControl.Json.Record
import RobotControl.Json5.Reader
import RobotControl.Ron.Reader
import RobotControl.Toml.Reader
import RobotControl.Yaml.Document

/-!
Formats of files with settings.

The ending of a file's name tells its format. In every format a document is a table of data;
documents that hold anything else are refused, like those that break the rules of their format.
-/

namespace RobotControl

namespace Data

/-! ### TOML -/

/-- The name that makes a date of a table, if it comes first. -/
def dateName : String := "$__toml_private_datetime"

mutual

/-- The data in a TOML value. Dates are texts. A table whose first name is `dateName` is the date
that is written there, and refused if there is none. -/
def ofToml? : Toml → Option Data
  | .string content | .datetime content => some (.text content)
  | .integer n => some (.integer n)
  | .float x => some (.float x)
  | .boolean value => some (.boolean value)
  | .array items => (ofTomlItems? items).map .list
  | .table [] => some (.table [])
  | .table ((name, v) :: entries) =>
    if name = dateName then match v with
      | .string content => (Toml.datetime? .quoted content.toList).map .text
      | _ => none
    else (ofTomlEntries? ((name, v) :: entries)).map .table

def ofTomlItems? : List Toml → Option (List Data)
  | [] => some []
  | v :: items => do return (← ofToml? v) :: (← ofTomlItems? items)

def ofTomlEntries? : List (String × Toml) → Option (List (String × Data))
  | [] => some []
  | (name, v) :: entries => do return (name, ← ofToml? v) :: (← ofTomlEntries? entries)

end

/-! ### JSON -/

/-- The data in a number. Whole numbers beyond 64 bits with a sign are floats. -/
def ofNumber : Json.Number → Data
  | .natural n => if isWord n then .integer n else .float (Float.ofNat n)
  | .negative n => .integer n
  | .real x => .float x

mutual

/-- The data in a JSON value. -/
def ofJson? : Json → Option Data
  | .null => some .nothing
  | .bool value => some (.boolean value)
  | .number literal => (Json.numberValue? literal).map ofNumber
  | .string content => some (.text content)
  | .array items => (ofJsonItems? items).map .list
  | .object members => (ofJsonMembers? members).map fun entries => .table (ofRepeated entries)
  | .unreadable => none

def ofJsonItems? : List Json → Option (List Data)
  | [] => some []
  | v :: items => do return (← ofJson? v) :: (← ofJsonItems? items)

def ofJsonMembers? : List (String × Json) → Option (List (String × Data))
  | [] => some []
  | (name, v) :: members => do return (name, ← ofJson? v) :: (← ofJsonMembers? members)

end

/-- The entries of a table. -/
def entries? : Data → Option (List (String × Data))
  | .table entries => some entries
  | _ => none

end Data

namespace Settings

/-- A format of files with settings. -/
inductive Format where
  | toml
  | json
  | yaml
  | ini
  | ron
  | json5
deriving DecidableEq

namespace Format

/-- The endings of names, and their formats. -/
def endings : List (String × Format) :=
  [("toml", toml), ("json", json), ("yaml", yaml), ("yml", yaml), ("ini", ini), ("ron", ron),
    ("json5", json5)]

def ofEnding? (ending : String) : Option Format :=
  (endings.find? fun entry => entry.1 == ending).map (·.2)

/-- Reads a document. -/
def read? : Format → String → Option (List (String × Data))
  | toml, text => do (← Data.ofToml? (.table (← Toml.read? text))).entries?
  | json, text => do
    let j ← Json.read? text
    if j.storable Json.maxDepth then (← Data.ofJson? j).entries? else none
  | yaml, text => Yaml.read? text
  | ini, text => Ini.read? text
  | ron, text => Ron.read? text
  | json5, text => Json5.read? text

end Format

end Settings

end RobotControl
