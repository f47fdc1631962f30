import RobotControl.Data.Basic
import RobotControl.Decimal.Literal

/-!
Layers of settings.

A layer lists values under keys. A key is a path: names with points between them lead into tables,
numbers in brackets into lists, where those below zero count from the end. `Layer.apply` puts a
layer over what is there already: tables grow together, and any other value takes the place of the
old one. A name that is given a value is written in lower case.
-/

namespace RobotControl

/-- Values under their keys. -/
abbrev Layer := List (String × Data)

namespace Layer

/-- A step on the way to a value. -/
inductive Place where
  | entry (name : String)
  /-- An item of a list. Below zero, the items are counted from the end. -/
  | item (index : Int)
deriving DecidableEq

/-- A character of a name in a path. -/
def inName (c : Char) : Bool :=
  c.isAlphanum || c == '_' || c == '-' || c == ' '

def isGap (c : Char) : Bool :=
  c == ' ' || c == '\t'

/-- Splits off the number of an item and its closing bracket. Blanks may stand around the number. -/
def splitIndex (cs : List Char) : Option (Int × List Char) := do
  let cs := cs.dropWhile isGap
  let number := cs.takeWhile fun c => c.isDigit || c == '-'
  let index ← Decimal.readInteger? number
  match (cs.drop number.length).dropWhile isGap with
  | ']' :: rest => if Data.isWord index then return (index, rest) else none
  | _ => none

/-- Reads the steps of a path, each with the mark before it. A step takes at least one character,
so the length of the text bounds their number. -/
def readPlaces : (fuel : Nat) → List Char → Option (List Place)
  | _, [] => some []
  | 0, _ => none
  | fuel + 1, '.' :: cs =>
    let name := cs.takeWhile inName
    if name.isEmpty then none
    else (readPlaces fuel (cs.dropWhile inName)).map (.entry (String.ofList name) :: ·)
  | fuel + 1, '[' :: cs => do
    let (index, rest) ← splitIndex cs
    return .item index :: (← readPlaces fuel rest)
  | _ + 1, _ => none

/-- The path of a key. A key that is no path is one name. -/
def path (key : String) : List Place :=
  let cs := '.' :: key.toList
  (readPlaces cs.length cs).getD [.entry key]

/-- The entries of a table; any other value has none. -/
def entriesOf : Option Data → List (String × Data)
  | some (.table entries) => entries
  | _ => []

/-- The items of a list; any other value has none. -/
def itemsOf : Option Data → List Data
  | some (.list items) => items
  | _ => []

mutual

/-- Puts a value over an old one. -/
def overlay : Data → Option Data → Data
  | .table entries, old => overlayEntries entries (old.getD (.table []))
  | v, _ => v

/-- Puts entries over a value, which becomes a table if there are any. -/
def overlayEntries : List (String × Data) → Data → Data
  | [], old => old
  | (name, v) :: rest, old =>
    let entries := entriesOf (some old)
    let name := name.toLower
    overlayEntries rest (.table (Data.assign name (overlay v (Data.entry? entries name)) entries))

end

/-- The greatest number of items to which a list is filled up. It lies far beyond the items that
settings look at. -/
def reach : Nat := 0x100000

/-- Where an item stands in a list of so many. -/
def position (size : Nat) (index : Int) : Nat :=
  if index < 0 then (size + index).toNat else min index.toNat reach

/-- Puts a value at the end of a path, and a table over what is there. What is in the way becomes a
table or a list; a list is filled up to the item. -/
def put (v : Data) : List Place → Option Data → Data
  | [], _ => v
  | [.entry name], old => overlayEntries [(name, v)] (old.getD (.table []))
  | .entry name :: places, old =>
    let entries := entriesOf old
    .table (Data.assign name (put v places (Data.entry? entries name)) entries)
  | .item index :: places, old =>
    let items := itemsOf old
    let place := position items.length index
    let filled := items ++ List.replicate (place + 1 - items.length) .nothing
    .list (filled.set place (put v places items[place]?))

/-- Puts a layer over what is there already. -/
def apply (layer : Layer) (old : Data) : Data :=
  layer.foldl (fun old (key, v) => put v (path key) (some old)) old

end Layer

end RobotControl
