/-!
What a robot can do and sense.

Actions are the leaves of programs, sensors the leaves of their conditions. Both are written as
keywords. A world answers every attempted action with an outcome; a refusal says why nothing
happened.
-/

namespace RobotControl

/-- One action of the robot. -/
inductive Action where
  | move
  | turnClockwise
  | turnCounterclockwise
  | shoot
  | pickUpAndUse
deriving DecidableEq, Repr

namespace Action

def all : List Action :=
  [move, turnClockwise, turnCounterclockwise, shoot, pickUpAndUse]

/-- The word for the action in programs. -/
def keyword : Action → String
  | move => "move"
  | turnClockwise => "turnclockwise"
  | turnCounterclockwise => "turncounterclockwise"
  | shoot => "shoot"
  | pickUpAndUse => "pick-up-and-use"

def ofKeyword? (word : String) : Option Action :=
  all.find? fun action => action.keyword == word

theorem ofKeyword?_keyword (a : Action) : ofKeyword? a.keyword = some a := by
  cases a <;> decide

end Action

/-- One thing the robot can sense. -/
inductive Sensor where
  /-- An obstacle stands on the cell to the right of the robot. -/
  | wall
  /-- An item lies on the robot's own cell. -/
  | atItem
  /-- The first occupied cell ahead holds a robot. -/
  | canHitRobot
deriving DecidableEq, Repr

namespace Sensor

def all : List Sensor :=
  [wall, atItem, canHitRobot]

/-- The word for the sensor in programs. -/
def keyword : Sensor → String
  | wall => "wall"
  | atItem => "at-item"
  | canHitRobot => "can-hit-robot"

def ofKeyword? (word : String) : Option Sensor :=
  all.find? fun sensor => sensor.keyword == word

theorem ofKeyword?_keyword (s : Sensor) : ofKeyword? s.keyword = some s := by
  cases s <;> decide

end Sensor

/-- Why a world did not carry out an action. -/
inductive Refusal where
  | insufficientEnergy
  | blocked
  | nothingHere
deriving DecidableEq, Repr

def Refusal.message : Refusal → String
  | .insufficientEnergy => "insufficient energy"
  | .blocked => "blocked"
  | .nothingHere => "nothing here"

/-- What became of an attempted action. -/
inductive Outcome where
  | applied
  | refused (why : Refusal)
deriving DecidableEq, Repr

namespace Outcome

def isApplied : Outcome → Bool
  | applied => true
  | refused _ => false

def message : Outcome → String
  | applied => "applied"
  | refused why => "refused (" ++ why.message ++ ")"

end Outcome

/-- An attempted action with its outcome. -/
structure Attempt where
  action : Action
  outcome : Outcome
deriving DecidableEq, Repr

end RobotControl
