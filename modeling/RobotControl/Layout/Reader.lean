import RobotControl.Layout.Basic
import RobotControl.Toml.Reader

/-!
Reading layouts from TOML.

Sizes and coordinates are whole numbers that 32 bits hold; amounts of energy may be whole numbers or
floats. A cell, a robot or a battery is a table with its fields, or an array that begins with them
in their order. Entries with other names are ignored.

A document that is no layout is refused as a whole, without a reason.
-/

namespace RobotControl

namespace Layout

/-- The fields of a record, in the order of `names`. In a table some can be missing, in an array
none. -/
def fields? (names : List String) : Toml → Option (List (Option Toml))
  | .table entries => some (names.map (Toml.entry? entries))
  | .array items =>
    if names.length ≤ items.length then some ((items.take names.length).map some) else none
  | _ => none

/-- Reads a size or a coordinate. -/
def word? : Toml → Option Nat
  | .integer n => if 0 ≤ n ∧ n < UInt32.size then some n.toNat else none
  | _ => none

/-- Reads an amount of energy. -/
def amount? : Toml → Option Float
  | .integer n => some (Float.ofInt n)
  | .float x => some x
  | _ => none

/-- Reads the word for a direction. It may stand as the one name of a table that says no more. -/
def facing? : Toml → Option Facing
  | .string word => Facing.ofKeyword? word
  | .table [(word, .table [])] | .table [(word, .array [])] => Facing.ofKeyword? word
  | _ => none

/-- Reads a cell. -/
def cell? (v : Toml) : Option Cell := do
  match ← fields? ["x", "y"] v with
  | [some x, some y] => return ⟨← word? x, ← word? y⟩
  | _ => none

/-- Reads a battery. -/
def battery? (v : Toml) : Option Battery := do
  match ← fields? ["x", "y", "energy"] v with
  | [some x, some y, some charge] => return ⟨⟨← word? x, ← word? y⟩, ← amount? charge⟩
  | _ => none

/-- Reads the list with a name; there need not be one. -/
def list? {α : Type} (item? : Toml → Option α) (entries : List (String × Toml)) (name : String) :
    Option (List α) :=
  match Toml.entry? entries name with
  | none => some []
  | some (.array items) => items.mapM item?
  | some _ => none

/-- Reads a document. A robot without a direction looks up. -/
def read? (text : String) : Option Layout := do
  let entries ← Toml.read? text
  let width ← word? (← Toml.entry? entries "width")
  let height ← word? (← Toml.entry? entries "height")
  match ← fields? ["x", "y", "facing", "energy"] (← Toml.entry? entries "robot") with
  | [some x, some y, facing, energy] =>
    return {
      grid := ⟨width.toUInt32, height.toUInt32⟩
      start := ⟨← word? x, ← word? y⟩
      facing := ← (facing.elim (some .up) facing?)
      energy := ← (energy.elim (some none) fun v => (amount? v).map some)
      walls := ← list? cell? entries "walls"
      others := ← list? cell? entries "robots"
      batteries := ← list? battery? entries "batteries" }
  | _ => none

end Layout

end RobotControl
