import RobotControl.Decimal.Written

/-!
What actions cost and how much energy a robot can store.

Amounts are in watt-seconds. An arena can be built with any costs; `Energy.isAmount` says which
numbers make sense as an amount.
-/

namespace RobotControl

structure Costs where
  move : Float := 500.0
  turn : Float := 100.0
  shoot : Float := 1000.0
  /-- The most a robot can store. -/
  capacity : Float := 20000.0

/-- The number is finite and not below zero. -/
def Energy.isAmount (x : Float) : Bool :=
  x.isFinite && !(x < 0.0)

/-- The costs by their names, in the order in which they are checked. -/
def Costs.named (c : Costs) : List (String × Float) :=
  [("move_cost", c.move), ("turn_cost", c.turn), ("shoot_cost", c.shoot)]

end RobotControl
