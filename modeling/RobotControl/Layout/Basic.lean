import RobotControl.Arena.Basic

/-!
Layouts.

A layout describes an arena before anything has happened in it: the size of the grid, where the
controlled robot starts, and lists of walls, other robots and batteries. What the actions cost is
not part of it.

`Layout.build` creates the arena and then makes the placements in the order of the lists: all
walls, all other robots, all batteries.
-/

namespace RobotControl

/-- A battery in a layout. -/
structure Layout.Battery where
  cell : Cell
  charge : Float

structure Layout where
  grid : Grid
  /-- Where the controlled robot starts. -/
  start : Cell
  facing : Facing
  /-- What the robot has stored at first; without a number the store is full. -/
  energy : Option Float
  walls : List Cell
  /-- The robots that no program controls. -/
  others : List Cell
  batteries : List Layout.Battery

namespace Layout

/-- The controlled robot as it starts. -/
def robot (l : Layout) (costs : Costs) : Robot :=
  ⟨l.start, l.facing, l.energy.getD costs.capacity⟩

/-- What stands and lies on the cells, in placing order. -/
def placements (l : Layout) : List Placement :=
  l.walls.map .wall ++ l.others.map .robot ++ l.batteries.map fun b => .battery b.cell b.charge

/-- The arena of a layout, or the first thing that is wrong with it. -/
def build (l : Layout) (costs : Costs) : Except ArenaError Arena := do
  let arena ← Arena.create l.grid (l.robot costs) costs
  arena.placeAll l.placements

end Layout

end RobotControl
