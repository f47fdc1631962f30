import RobotControl.Action
import RobotControl.Arena.Batteries
import RobotControl.Arena.Costs

/-!
Arenas.

An arena is a grid with walls, other robots, batteries and the robot that a program controls. It is
built from an empty grid with the robot on it by placing one thing after another; each placement is
checked against what is there already. Batteries may share a cell with each other and with the
controlled robot.

The journal lists every attempted action.
-/

namespace RobotControl

/-- The controlled robot. -/
structure Robot where
  cell : Cell
  facing : Facing
  /-- The stored energy. -/
  energy : Float

structure Arena where
  grid : Grid
  walls : List Cell
  /-- The robots that no program controls. -/
  others : List Cell
  batteries : Batteries
  robot : Robot
  costs : Costs
  journal : Array Attempt

/-- Why an arena cannot be built. -/
inductive ArenaError where
  | emptyGrid (grid : Grid)
  | outOfBounds (cell : Cell) (grid : Grid)
  | occupied (cell : Cell)
  | invalidEnergy (energy capacity : Float)
  | invalidCharge (cell : Cell) (charge : Float)

def Cell.text (c : Cell) : String :=
  s!"({c.x}, {c.y})"

def Grid.text (g : Grid) : String :=
  s!"{g.width.toNat}x{g.height.toNat}"

def ArenaError.message : ArenaError → String
  | .emptyGrid grid => "arena must be at least 1x1, got " ++ grid.text
  | .outOfBounds cell grid => cell.text ++ " lies outside the " ++ grid.text ++ " arena"
  | .occupied cell => cell.text ++ " is already occupied"
  | .invalidEnergy energy capacity =>
    "energy " ++ Decimal.plainText energy ++ " is outside 0..=" ++ Decimal.plainText capacity
  | .invalidCharge cell charge =>
    "battery at " ++ cell.text ++ " must hold a finite, non-negative charge, got " ++
      Decimal.plainText charge

/-- One thing put on a cell. -/
inductive Placement where
  | wall (cell : Cell)
  | robot (cell : Cell)
  | battery (cell : Cell) (charge : Float)

namespace Arena

/-- Refuses a cell that is not on the grid. -/
def checkBounds (grid : Grid) (cell : Cell) : Except ArenaError Unit :=
  if grid.contains cell then .ok () else .error (.outOfBounds cell grid)

/-- An empty grid with the controlled robot on it. The grid is checked first, then the energy, then
the place of the robot. -/
def create (grid : Grid) (robot : Robot) (costs : Costs) : Except ArenaError Arena :=
  if grid.width = 0 ∨ grid.height = 0 then .error (.emptyGrid grid)
  else if ¬(0.0 ≤ robot.energy ∧ robot.energy ≤ costs.capacity) then
    .error (.invalidEnergy robot.energy costs.capacity)
  else do
    checkBounds grid robot.cell
    return ⟨grid, [], [], .empty, robot, costs, #[]⟩

/-- A wall or another robot stands on the cell. -/
def obstructed (a : Arena) (cell : Cell) : Bool :=
  a.walls.contains cell || a.others.contains cell

/-- Refuses a cell where no wall and no robot can be placed. A battery does not keep them away. -/
def checkFree (a : Arena) (cell : Cell) : Except ArenaError Unit := do
  checkBounds a.grid cell
  if cell = a.robot.cell ∨ a.obstructed cell then .error (.occupied cell)

/-- Refuses a battery on an obstructed cell, and one whose charge is no amount of energy. -/
def checkBattery (a : Arena) (cell : Cell) (charge : Float) : Except ArenaError Unit := do
  checkBounds a.grid cell
  if a.obstructed cell then .error (.occupied cell)
  else if ¬Energy.isAmount charge then .error (.invalidCharge cell charge)

/-- Puts one thing on a cell. -/
def place (a : Arena) : Placement → Except ArenaError Arena
  | .wall cell => do
    a.checkFree cell
    return { a with walls := a.walls ++ [cell] }
  | .robot cell => do
    a.checkFree cell
    return { a with others := a.others ++ [cell] }
  | .battery cell charge => do
    a.checkBattery cell charge
    return { a with batteries := a.batteries.place cell charge }

/-- Puts things on their cells one after another, up to the first that is refused. -/
def placeAll (a : Arena) (placements : List Placement) : Except ArenaError Arena :=
  placements.foldlM place a

/-- Something stands or lies on the cell. The controlled robot does not count. -/
def occupied (a : Arena) (cell : Cell) : Bool :=
  a.obstructed cell || a.batteries.holds cell

end Arena

end RobotControl
