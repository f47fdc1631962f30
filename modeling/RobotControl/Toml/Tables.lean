import RobotControl.Toml.Basic

/-!
How the tables of a TOML document come together.

A table is made by a header, by being on the way to a deeper header, or by a dotted key. A table
that was only on the way can still get a header of its own; any other table is finished when it is
left, and no name is given twice. `Entries.insert`, `Entries.openTable` and `Entries.openItem` do
what a line of a document asks, and refuse what would define something a second time.
-/

namespace RobotControl.Toml

/-- What made a table. -/
inductive Origin where
  /-- A header of its own, or the document itself. -/
  | header
  /-- A header further in. -/
  | implied
  /-- A dotted key. -/
  | dotted
deriving DecidableEq

/-- A part of a document that may still grow. The items of an array of tables are tables with
headers; the last one is open. -/
inductive Node where
  | value (v : Toml)
  | table (origin : Origin) (entries : List (String × Node))
  | tables (items : List (List (String × Node)))

/-- The entries of a table that may still grow. -/
abbrev Entries := List (String × Node)

namespace Entries

def find (entries : Entries) (name : String) : Option Node :=
  (entries.find? fun entry => entry.1 == name).map (·.2)

/-- Gives the entry with a name another value. -/
def update (entries : Entries) (name : String) (node : Node) : Entries :=
  entries.map fun entry => if entry.1 == name then (name, node) else entry

/-- Changes the table at the end of a path and makes the tables on the way that are missing. In an
array of tables the way leads through its last item. A dotted key does not lead into a table with a
header. -/
def atPath (made : Origin) (change : Origin → Entries → Option (Origin × Entries)) :
    (path : List String) → Origin → Entries → Option (Origin × Entries)
  | [], origin, entries => change origin entries
  | name :: path, origin, entries =>
    match entries.find name with
    | none => do
      let (_, below) ← atPath made change path made []
      return (origin, entries ++ [(name, .table made below)])
    | some (.value _) => none
    | some (.tables items) => do
      let (_, below) ← atPath made change path .header (items.getLast?.getD [])
      return (origin, entries.update name (.tables (items.dropLast ++ [below])))
    | some (.table inner entries') =>
      if made = .dotted ∧ inner = .header then none
      else do
        let (inner, below) ← atPath made change path inner entries'
        return (origin, entries.update name (.table inner below))

/-- Adds a value under the last part of a key. -/
def insert (key : List String) (v : Toml) (origin : Origin) (entries : Entries) :
    Option (Origin × Entries) := do
  let name ← key.getLast?
  let path := key.dropLast
  let add (origin : Origin) (entries : Entries) : Option (Origin × Entries) :=
    if (decide (origin = .dotted) == path.isEmpty) || (entries.find name).isSome then none
    else some (origin, entries ++ [(name, .value v)])
  atPath .dotted add path origin entries

/-- Opens the table that a header names. One that was on the way so far moves to the end. -/
def openTable (name : String) (origin : Origin) (entries : Entries) : Option (Origin × Entries) :=
  match entries.find name with
  | none => some (origin, entries ++ [(name, .table .header [])])
  | some (.table .implied below) =>
    some (origin, entries.filter (·.1 != name) ++ [(name, .table .header below)])
  | some _ => none

/-- Opens the next item of the array of tables that a header names. -/
def openItem (name : String) (origin : Origin) (entries : Entries) : Option (Origin × Entries) :=
  match entries.find name with
  | none => some (origin, entries ++ [(name, .tables [[]])])
  | some (.tables items) => some (origin, entries.update name (.tables (items ++ [[]])))
  | some _ => none

end Entries

mutual

/-- The value of a part that is complete. -/
def Node.toToml : Node → Toml
  | .value v => v
  | .table _ entries => .table (Node.entriesToToml entries)
  | .tables items => .array (Node.itemsToToml items)

def Node.entriesToToml : List (String × Node) → List (String × Toml)
  | [] => []
  | (name, node) :: rest => (name, node.toToml) :: Node.entriesToToml rest

def Node.itemsToToml : List (List (String × Node)) → List Toml
  | [] => []
  | item :: rest => .table (Node.entriesToToml item) :: Node.itemsToToml rest

end

end RobotControl.Toml
