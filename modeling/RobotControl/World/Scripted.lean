import RobotControl.World

/-!
A world that follows a script.

Each sensor has a list of readings to give, one after another; the last one repeats for ever. The
energy store pays a fixed price per action and gains a fixed amount per item, and chosen actions are
always refused. It stands for any world whose readings change on their own.
-/

namespace RobotControl

/-- The readings a sensor still has to give. -/
structure Readings where
  pending : List Bool
deriving DecidableEq

/-- Gives the next reading. A sensor without readings says no. -/
def Readings.next (r : Readings) : Bool × Readings :=
  match r.pending with
  | [] => (false, r)
  | [last] => (last, r)
  | value :: rest => (value, ⟨rest⟩)

structure ScriptedWorld where
  wall : Readings := ⟨[]⟩
  atItem : Readings := ⟨[]⟩
  canHitRobot : Readings := ⟨[]⟩
  /-- The stored energy. -/
  stored : Float := 0.0
  /-- The price of every action. -/
  cost : Float := 0.0
  /-- What picking up an item adds to the store. -/
  gain : Float := 0.0
  /-- The actions that are always blocked. -/
  refuses : List Action := []

namespace ScriptedWorld

/-- An action is blocked if the script says so, else refused if it is too dear, else paid for. -/
def attempt (action : Action) (w : ScriptedWorld) : Outcome × ScriptedWorld :=
  if w.refuses.contains action then (.refused .blocked, w)
  else if w.stored < w.cost then (.refused .insufficientEnergy, w)
  else
    let paid := w.stored - w.cost
    let stored := if action = .pickUpAndUse then paid + w.gain else paid
    (.applied, { w with stored })

instance : World ScriptedWorld where
  sense
    | .wall, w => (w.wall.next.1, { w with wall := w.wall.next.2 })
    | .atItem, w => (w.atItem.next.1, { w with atItem := w.atItem.next.2 })
    | .canHitRobot, w => (w.canHitRobot.next.1, { w with canHitRobot := w.canHitRobot.next.2 })
  energy w := (w.stored, w)
  attempt := attempt

end ScriptedWorld

end RobotControl
