import RobotControl.Arena.Grid

/-!
Batteries on the cells of a grid.

Batteries placed on one cell form a pile: the one placed last is taken first. A cell is listed as
long as it holds a battery.
-/

namespace RobotControl

/-- The cells with batteries, each with its charges in placing order. -/
structure Batteries where
  piles : List (Cell × List Float)

namespace Batteries

def empty : Batteries := ⟨[]⟩

/-- The pile listed for a cell. -/
def pile? (b : Batteries) (cell : Cell) : Option (List Float) :=
  (b.piles.find? fun entry => entry.1 = cell).map (·.2)

/-- The charges on a cell, in placing order. -/
def chargesAt (b : Batteries) (cell : Cell) : List Float :=
  (b.pile? cell).getD []

/-- The cell is listed. -/
def holds (b : Batteries) (cell : Cell) : Bool :=
  (b.pile? cell).isSome

/-- How many batteries there are on all cells together. -/
def count (b : Batteries) : Nat :=
  b.piles.foldr (fun entry rest => entry.2.length + rest) 0

/-- The piles with one more charge on top of a cell's. -/
def pushOnto (cell : Cell) (charge : Float) : List (Cell × List Float) → List (Cell × List Float)
  | [] => [(cell, [charge])]
  | (c, pile) :: rest =>
    if c = cell then (c, pile ++ [charge]) :: rest else (c, pile) :: pushOnto cell charge rest

/-- Places a battery on a cell. -/
def place (b : Batteries) (cell : Cell) (charge : Float) : Batteries :=
  ⟨pushOnto cell charge b.piles⟩

/-- Removes every battery of a cell. -/
def clear (b : Batteries) (cell : Cell) : Batteries :=
  ⟨b.piles.filter fun entry => entry.1 ≠ cell⟩

/-- Lists another pile for a cell that is listed. -/
def relist (b : Batteries) (cell : Cell) (pile : List Float) : Batteries :=
  ⟨b.piles.map fun entry => if entry.1 = cell then (cell, pile) else entry⟩

/-- Takes the battery that was placed last on a cell. A cell that is then empty is listed no
longer. -/
def take? (b : Batteries) (cell : Cell) : Option (Float × Batteries) := do
  let pile ← b.pile? cell
  let charge ← pile.getLast?
  let left := pile.dropLast
  return (charge, if left.isEmpty then b.clear cell else b.relist cell left)

end Batteries

end RobotControl
