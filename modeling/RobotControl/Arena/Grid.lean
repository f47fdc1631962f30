/-!
Cells, directions and grids.

The cell `(0, 0)` is the top-left corner; `x` grows to the right and `y` downwards. A grid is a
rectangle of cells. Its sizes are 32-bit words, so the number one past any coordinate on a grid is
a 32-bit word as well.
-/

namespace RobotControl

structure Cell where
  x : Nat
  y : Nat
deriving DecidableEq, Repr

/-- Cells are listed by column, and within a column from the top. -/
def Cell.before (c d : Cell) : Bool :=
  c.x < d.x || (c.x == d.x && c.y ≤ d.y)

/-- The direction a robot looks in. -/
inductive Facing where
  | up
  | right
  | down
  | left
deriving DecidableEq, Repr

namespace Facing

def all : List Facing :=
  [up, right, down, left]

def clockwise : Facing → Facing
  | up => right
  | right => down
  | down => left
  | left => up

def counterclockwise : Facing → Facing
  | up => left
  | left => down
  | down => right
  | right => up

/-- The word for the direction in layouts. -/
def keyword : Facing → String
  | up => "up"
  | right => "right"
  | down => "down"
  | left => "left"

/-- The word for the direction in reports. -/
def title : Facing → String
  | up => "Up"
  | right => "Right"
  | down => "Down"
  | left => "Left"

def ofKeyword? (word : String) : Option Facing :=
  all.find? fun facing => facing.keyword == word

theorem counterclockwise_clockwise (f : Facing) : f.clockwise.counterclockwise = f := by
  cases f <;> rfl

end Facing

/-- A rectangle of cells. -/
structure Grid where
  width : UInt32
  height : UInt32
deriving DecidableEq

namespace Grid

/-- The cell lies on the grid. -/
def contains (g : Grid) (c : Cell) : Bool :=
  c.x < g.width.toNat && c.y < g.height.toNat

/-- The cell next to `c` in a direction, if the grid goes on there. -/
def neighbour (g : Grid) (c : Cell) : Facing → Option Cell
  | .up => if c.y = 0 then none else some { c with y := c.y - 1 }
  | .down => if c.y + 1 < g.height.toNat then some { c with y := c.y + 1 } else none
  | .left => if c.x = 0 then none else some { c with x := c.x - 1 }
  | .right => if c.x + 1 < g.width.toNat then some { c with x := c.x + 1 } else none

/-- The number of cells between `c` and the edge of the grid in a direction. -/
def reach (g : Grid) (c : Cell) : Facing → Nat
  | .up => c.y
  | .down => g.height.toNat - 1 - c.y
  | .left => c.x
  | .right => g.width.toNat - 1 - c.x

end Grid

end RobotControl
