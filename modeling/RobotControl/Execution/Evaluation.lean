import RobotControl.Program
import RobotControl.World

/-!
Evaluating conditions.

Operands are evaluated from left to right, and no further than needed: the first false operand
settles `and`, the first true one `or`. Without operands `and` holds and `or` does not. A comparison
with a value that is not a number is false.
-/

namespace RobotControl

variable {σ : Type} [World σ]

/-- Reads the energy store and compares it with an amount. -/
def Condition.readAmount (amount : Float) (s : σ) : Bool × σ :=
  let (stored, s) := World.energy s
  (decide (amount ≤ stored), s)

mutual

/-- The truth of a condition in a world, and the world after the readings. -/
def Condition.evaluate : Condition → σ → Bool × σ
  | .constant value, s => (value, s)
  | .sensor which, s => World.sense which s
  | .energyAtLeast amount, s => Condition.readAmount amount s
  | .and operands, s => Condition.evaluateAll operands s
  | .or operands, s => Condition.evaluateAny operands s
  | .not operand, s =>
    let (value, s) := operand.evaluate s
    (!value, s)

/-- All the conditions hold, read until one does not. -/
def Condition.evaluateAll : List Condition → σ → Bool × σ
  | [], s => (true, s)
  | c :: cs, s => match c.evaluate s with
    | (true, s) => Condition.evaluateAll cs s
    | (false, s) => (false, s)

/-- One of the conditions holds, read until one does. -/
def Condition.evaluateAny : List Condition → σ → Bool × σ
  | [], s => (false, s)
  | c :: cs, s => match c.evaluate s with
    | (true, s) => (true, s)
    | (false, s) => Condition.evaluateAny cs s

end

end RobotControl
