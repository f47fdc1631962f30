import RobotControl.Decimal.Written
import RobotControl.Json.Printer
import RobotControl.Json.Reader
import RobotControl.Json.Record
import RobotControl.Program

/-!
Programs and conditions as JSON.

Every node is a record tagged with its kind. Written documents put the tag first and the other
fields in a fixed order; documents are read as `Json.Record` allows. The readers recurse on the
levels of nesting that a document may still have.
-/

namespace RobotControl

/-- The word for an action in documents. -/
def Action.savedName : Action → String
  | .move => "move"
  | .turnClockwise => "turn_clockwise"
  | .turnCounterclockwise => "turn_counterclockwise"
  | .shoot => "shoot"
  | .pickUpAndUse => "pick_up_and_use"

def Action.ofSavedName? (name : String) : Option Action :=
  Action.all.find? fun action => action.savedName == name

/-- The word for a sensor in documents. -/
def Sensor.savedName : Sensor → String
  | .wall => "wall"
  | .atItem => "at_item"
  | .canHitRobot => "can_hit_robot"

def Sensor.ofSavedName? (name : String) : Option Sensor :=
  Sensor.all.find? fun sensor => sensor.savedName == name

/-- Reads the word for an action. -/
def Action.ofJson? (intake : Json.Intake) (j : Json) : Option Action :=
  (j.word? intake (Action.all.map Action.savedName)).bind Action.ofSavedName?

/-- Reads the word for a sensor. -/
def Sensor.ofJson? (intake : Json.Intake) (j : Json) : Option Sensor :=
  (j.word? intake (Sensor.all.map Sensor.savedName)).bind Sensor.ofSavedName?

/-! ### Writing -/

/-- A record with its tag first. -/
def Json.ofKind (kind : String) (fields : List (String × Json)) : Json :=
  .object (("type", .string kind) :: fields)

mutual

def Condition.toJson : Condition → Json
  | .constant value => Json.ofKind "Constant" [("v", .bool value)]
  | .sensor which => Json.ofKind "Sensor" [("kind", .string which.savedName)]
  | .energyAtLeast amount =>
    Json.ofKind "EnergyAtLeast" [("amount", .number (Decimal.pointed amount))]
  | .and operands => Json.ofKind "And" [("operands", .array (Condition.toJsonAll operands))]
  | .or operands => Json.ofKind "Or" [("operands", .array (Condition.toJsonAll operands))]
  | .not operand => Json.ofKind "Not" [("operand", operand.toJson)]

def Condition.toJsonAll : List Condition → List Json
  | [] => []
  | c :: cs => c.toJson :: Condition.toJsonAll cs

end

mutual

def Program.toJson : Program → Json
  | .act action => Json.ofKind "Primitive" [("kind", .string action.savedName)]
  | .seq body => Json.ofKind "Sequence" [("body", .array (Program.toJsonAll body))]
  | .branch test thenPart elsePart =>
    Json.ofKind "Conditional"
      [("test", test.toJson), ("then_c", thenPart.toJson), ("else_c", elsePart.toJson)]
  | .loop test body => Json.ofKind "Loop" [("test", test.toJson), ("body", body.toJson)]

def Program.toJsonAll : List Program → List Json
  | [] => []
  | p :: ps => p.toJson :: Program.toJsonAll ps

end

/-! ### Reading -/

namespace Condition

def savedKinds : List String :=
  ["Constant", "Sensor", "EnergyAtLeast", "And", "Or", "Not"]

/-- Reads a condition with `levels` levels of nesting left. -/
def ofTree? : (levels : Nat) → (nested : Bool) → Json → Option Condition
  | 0, _, _ => none
  | levels + 1, nested, j => do
    let (tag, content) ← j.tagged? "type"
    match ← tag.kind? nested savedKinds with
    | "Constant" => match ← content.record? ["v"] with
      | [.bool value] => return .constant value
      | _ => none
    | "Sensor" => match ← content.record? ["kind"] with
      | [kind] => return .sensor (← Sensor.ofJson? .whole kind)
      | _ => none
    | "EnergyAtLeast" => match ← content.record? ["amount"] with
      | [amount] => return .energyAtLeast (← amount.real?)
      | _ => none
    | "And" => match ← content.record? ["operands"] with
      | [.array operands] => return .and (← operands.mapM (ofTree? levels true))
      | _ => none
    | "Or" => match ← content.record? ["operands"] with
      | [.array operands] => return .or (← operands.mapM (ofTree? levels true))
      | _ => none
    | _ => match ← content.record? ["operand"] with
      | [operand] => return .not (← ofTree? levels true operand)
      | _ => none

/-- Reads a condition that is taken in whole. -/
def ofJson? (levels : Nat) (j : Json) : Option Condition :=
  if j.storable levels then ofTree? (levels + 1) false j else none

/-- Reads a document that is a condition. -/
def ofDocument? (text : String) : Option Condition :=
  (Json.read? text).bind (ofJson? Json.maxDepth)

end Condition

namespace Program

def savedKinds : List String :=
  ["Primitive", "Sequence", "Conditional", "Loop"]

/-- Reads a program with `levels` levels of nesting left. -/
def ofTree? : (levels : Nat) → (nested : Bool) → Json → Option Program
  | 0, _, _ => none
  | levels + 1, nested, j => do
    let (tag, content) ← j.tagged? "type"
    match ← tag.kind? nested savedKinds with
    | "Primitive" => match ← content.record? ["kind"] with
      | [kind] => return .act (← Action.ofJson? .whole kind)
      | _ => none
    | "Sequence" => match ← content.record? ["body"] with
      | [.array body] => return .seq (← body.mapM (ofTree? levels true))
      | _ => none
    | "Conditional" => match ← content.record? ["test", "then_c", "else_c"] with
      | [test, thenPart, elsePart] =>
        return .branch (← Condition.ofTree? levels true test) (← ofTree? levels true thenPart)
          (← ofTree? levels true elsePart)
      | _ => none
    | _ => match ← content.record? ["test", "body"] with
      | [test, body] =>
        return .loop (← Condition.ofTree? levels true test) (← ofTree? levels true body)
      | _ => none

/-- Reads a program that is taken in whole. -/
def ofJson? (levels : Nat) (j : Json) : Option Program :=
  if j.storable levels then ofTree? (levels + 1) false j else none

/-- Reads a document that is a program. -/
def ofDocument? (text : String) : Option Program :=
  (Json.read? text).bind (ofJson? Json.maxDepth)

end Program

end RobotControl
