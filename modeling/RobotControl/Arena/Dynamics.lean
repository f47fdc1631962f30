import RobotControl.Arena.Basic
import RobotControl.World

/-!
Acting and sensing in an arena.

An action is refused as a whole or carried out as a whole, and the attempt is entered in the
journal either way. Moving, turning and shooting cost energy; picking up a battery adds its charge
to the store, up to the capacity. A shot flies straight ahead and hits the first occupied cell: a
robot there is removed, and if there is none, so are the batteries.

Sensing changes nothing.
-/

namespace RobotControl

namespace Arena

/-- The first occupied cell among the next `cells` cells in a direction, seen from `cell`. -/
def firstOccupiedFrom (a : Arena) (facing : Facing) : (cells : Nat) → (cell : Cell) → Option Cell
  | 0, _ => none
  | cells + 1, cell => match a.grid.neighbour cell facing with
    | none => none
    | some next =>
      if a.occupied next then some next else a.firstOccupiedFrom facing cells next

/-- The first occupied cell ahead of the robot, up to the edge of the grid. -/
def firstOccupiedAhead (a : Arena) : Option Cell :=
  a.firstOccupiedFrom a.robot.facing (a.grid.reach a.robot.cell a.robot.facing) a.robot.cell

/-! ### Sensors -/

/-- The reading of a sensor. -/
def senses (a : Arena) : Sensor → Bool
  | .wall => match a.grid.neighbour a.robot.cell a.robot.facing.clockwise with
    | some cell => a.walls.contains cell
    | none => false
  | .atItem => a.batteries.holds a.robot.cell
  | .canHitRobot => match a.firstOccupiedAhead with
    | some cell => a.others.contains cell
    | none => false

/-! ### Actions -/

/-- Takes a price from the store. -/
def pay (a : Arena) (cost : Float) : Except Refusal Arena :=
  if a.robot.energy < cost then .error .insufficientEnergy
  else .ok { a with robot := { a.robot with energy := a.robot.energy - cost } }

/-- The cell ahead of the robot, if it can move there. -/
def openAhead (a : Arena) : Option Cell :=
  (a.grid.neighbour a.robot.cell a.robot.facing).filter fun cell => !a.obstructed cell

/-- Moves one cell ahead. Too little energy is noticed before an obstacle. -/
def move (a : Arena) : Except Refusal Arena :=
  if a.robot.energy < a.costs.move then .error .insufficientEnergy
  else match a.openAhead with
    | none => .error .blocked
    | some cell => do
      let a ← a.pay a.costs.move
      return { a with robot := { a.robot with cell } }

def turnTo (a : Arena) (facing : Facing) : Except Refusal Arena := do
  let a ← a.pay a.costs.turn
  return { a with robot := { a.robot with facing } }

/-- Takes a hit on a cell: a robot on it is removed, or else its batteries are. -/
def hit (a : Arena) (cell : Cell) : Arena :=
  if a.others.contains cell then { a with others := a.others.filter (· ≠ cell) }
  else { a with batteries := a.batteries.clear cell }

def shoot (a : Arena) : Except Refusal Arena := do
  let a ← a.pay a.costs.shoot
  return match a.firstOccupiedAhead with
    | some cell => a.hit cell
    | none => a

/-- The lesser of two numbers. A value that is not a number gives way to the other. -/
def lesser (x y : Float) : Float :=
  if x.isNaN then y else if y < x then y else x

/-- Takes the battery placed last on the robot's cell and stores its charge. -/
def pickUpAndUse (a : Arena) : Except Refusal Arena :=
  match a.batteries.take? a.robot.cell with
  | none => .error .nothingHere
  | some (charge, batteries) =>
    let energy := lesser (a.robot.energy + charge) a.costs.capacity
    .ok { a with batteries, robot := { a.robot with energy } }

/-- What an action does. -/
def act (a : Arena) : Action → Except Refusal Arena
  | .move => a.move
  | .turnClockwise => a.turnTo a.robot.facing.clockwise
  | .turnCounterclockwise => a.turnTo a.robot.facing.counterclockwise
  | .shoot => a.shoot
  | .pickUpAndUse => a.pickUpAndUse

/-- Enters an attempt in the journal. -/
def enter (a : Arena) (attempt : Attempt) : Arena :=
  { a with journal := a.journal.push attempt }

/-- Attempts an action and enters it in the journal. -/
def attempt (action : Action) (a : Arena) : Outcome × Arena :=
  match a.act action with
  | .ok a => (.applied, a.enter ⟨action, .applied⟩)
  | .error why => (.refused why, a.enter ⟨action, .refused why⟩)

end Arena

instance : World Arena where
  sense sensor a := (a.senses sensor, a)
  energy a := (a.robot.energy, a)
  attempt := Arena.attempt

instance : Steadfast Arena where
  sense_state _ _ := rfl
  energy_state _ := rfl

end RobotControl
