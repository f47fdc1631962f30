import RobotControl.Decimal.Literal
import RobotControl.Program
import RobotControl.Source.Form

/-!
Reading programs and conditions.

The grammar, in which a tag may be written in any case and blanks may stand between any two parts:

* a program is an action's keyword in parentheses, `(seq program …)`, `(if condition program
  program)` or `(while condition program)`;
* a condition is a sensor's keyword in parentheses, `(true)`, `(false)`, `(and condition …)`,
  `(or condition …)`, `(not condition)` or `(energy-at-least amount)`.

The parentheses of the whole text are checked first. After that the first fault from left to right
is reported, the fault of a form before those of its arguments. Forms may nest `maxDepth` levels
deep; the readers recurse on the levels that are left.
-/

namespace RobotControl

open Source

/-- The deepest nesting of forms that is read. -/
def maxDepth : Nat := 256

namespace Source

/-- Takes a text apart that must be one form. -/
def openForm (expected : Production) (cs : List Char) : Except SyntaxError Form :=
  if (Text.trim cs).isEmpty then .error (.empty expected)
  else match Form.split? cs with
    | some form => .ok form
    | none => .error (.unrecognized expected (String.ofList (Text.trim cs)))

/-- The error for a text where no level is left for a form. -/
def tooDeepFor (expected : Production) (cs : List Char) : SyntaxError :=
  if (Text.trim cs).isEmpty then .empty expected else .tooDeep maxDepth

/-- The error for a tag that the production does not know. -/
def Form.unknown (expected : Production) (form : Form) : SyntaxError :=
  .unrecognized expected (String.ofList form.text)

/-- The error for a form with the wrong number of arguments. -/
def Form.miscounted (form : Form) (expected : Nat) : SyntaxError :=
  .arity form.tag expected form.arguments.length

/-- Reads a form that takes no argument. -/
def Form.alone {α : Type} (form : Form) (value : α) : Except SyntaxError α :=
  if form.arguments.isEmpty then .ok value else .error (form.miscounted 0)

/-- Reads an amount, which must be finite. -/
def readAmount (cs : List Char) : Except SyntaxError Float :=
  match Decimal.read? cs with
  | some amount =>
    if amount.isFinite then .ok amount else .error (.invalidNumber (String.ofList cs))
  | none => .error (.invalidNumber (String.ofList cs))

/-- Reads a condition with `levels` levels of nesting left. -/
def readCondition : (levels : Nat) → List Char → Except SyntaxError Condition
  | 0, cs => .error (tooDeepFor .condition cs)
  | levels + 1, cs => do
    let form ← openForm .condition cs
    match form.tag with
    | "true" => form.alone (.constant true)
    | "false" => form.alone (.constant false)
    | "and" => return .and (← form.arguments.mapM (readCondition levels))
    | "or" => return .or (← form.arguments.mapM (readCondition levels))
    | "not" => match form.arguments with
      | [operand] => return .not (← readCondition levels operand)
      | _ => .error (form.miscounted 1)
    | "energy-at-least" => match form.arguments with
      | [amount] => return .energyAtLeast (← readAmount amount)
      | _ => .error (form.miscounted 1)
    | word => match Sensor.ofKeyword? word with
      | some sensor => form.alone (.sensor sensor)
      | none => .error (form.unknown .condition)

/-- Reads a program with `levels` levels of nesting left. -/
def readProgram : (levels : Nat) → List Char → Except SyntaxError Program
  | 0, cs => .error (tooDeepFor .program cs)
  | levels + 1, cs => do
    let form ← openForm .program cs
    match form.tag with
    | "seq" => return .seq (← form.arguments.mapM (readProgram levels))
    | "if" => match form.arguments with
      | [test, thenPart, elsePart] =>
        return .branch (← readCondition levels test) (← readProgram levels thenPart)
          (← readProgram levels elsePart)
      | _ => .error (form.miscounted 3)
    | "while" => match form.arguments with
      | [test, body] => return .loop (← readCondition levels test) (← readProgram levels body)
      | _ => .error (form.miscounted 2)
    | word => match Action.ofKeyword? word with
      | some action => form.alone (.act action)
      | none => .error (form.unknown .program)

/-- Refuses a text whose parentheses do not match. -/
def checkBalance (cs : List Char) : Except SyntaxError Unit :=
  if balanced cs then .ok () else .error (.unbalanced (String.ofList (Text.trim cs)))

end Source

/-- Reads a whole text as a program. -/
def Program.read (text : String) : Except SyntaxError Program := do
  checkBalance text.toList
  readProgram maxDepth text.toList

/-- Reads a whole text as a condition. -/
def Condition.read (text : String) : Except SyntaxError Condition := do
  checkBalance text.toList
  readCondition maxDepth text.toList

end RobotControl
