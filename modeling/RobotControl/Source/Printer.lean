import RobotControl.Decimal.Written
import RobotControl.Program

/-!
Writing programs and conditions.

The compact form is one line with one blank between neighbours; it is the canonical text of a
program. The indented form gives every program node a line of its own, two blanks further in than
its parent; conditions stay on the line of the node they belong to.
-/

namespace RobotControl

/-- A keyword alone in its parentheses. -/
def Source.bare (keyword : String) : List Char :=
  '(' :: keyword.toList ++ [')']

mutual

/-- The text of a condition. -/
def Condition.compact : Condition → List Char
  | .constant true => ['(', 't', 'r', 'u', 'e', ')']
  | .constant false => ['(', 'f', 'a', 'l', 's', 'e', ')']
  | .sensor which => Source.bare which.keyword
  | .energyAtLeast amount =>
    "(energy-at-least ".toList ++ Decimal.plain amount ++ [')']
  | .and operands => ['(', 'a', 'n', 'd'] ++ Condition.compactAll operands ++ [')']
  | .or operands => ['(', 'o', 'r'] ++ Condition.compactAll operands ++ [')']
  | .not operand => ['(', 'n', 'o', 't', ' '] ++ operand.compact ++ [')']

/-- The conditions one after another, a blank before each. -/
def Condition.compactAll : List Condition → List Char
  | [] => []
  | c :: cs => ' ' :: c.compact ++ Condition.compactAll cs

end

mutual

/-- The text of a program on one line. -/
def Program.compact : Program → List Char
  | .act action => Source.bare action.keyword
  | .seq body => ['(', 's', 'e', 'q'] ++ Program.compactAll body ++ [')']
  | .branch test thenPart elsePart =>
    ['(', 'i', 'f', ' '] ++ test.compact ++ ' ' :: thenPart.compact ++ ' ' :: elsePart.compact ++
      [')']
  | .loop test body =>
    ['(', 'w', 'h', 'i', 'l', 'e', ' '] ++ test.compact ++ ' ' :: body.compact ++ [')']

/-- The programs one after another, a blank before each. -/
def Program.compactAll : List Program → List Char
  | [] => []
  | p :: ps => ' ' :: p.compact ++ Program.compactAll ps

end

/-- The blanks before a line `depth` levels in. -/
def Source.indent (depth : Nat) : List Char :=
  List.replicate (2 * depth) ' '

mutual

/-- The text of a program over several lines, the first of them `depth` levels in. -/
def Program.indented (depth : Nat) : Program → List Char
  | .act action => Source.indent depth ++ Source.bare action.keyword
  | .seq body =>
    Source.indent depth ++ ['(', 's', 'e', 'q'] ++ Program.indentedAll (depth + 1) body ++ [')']
  | .branch test thenPart elsePart =>
    Source.indent depth ++ ['(', 'i', 'f', ' '] ++ test.compact ++
      '\n' :: thenPart.indented (depth + 1) ++ '\n' :: elsePart.indented (depth + 1) ++ [')']
  | .loop test body =>
    Source.indent depth ++ ['(', 'w', 'h', 'i', 'l', 'e', ' '] ++ test.compact ++
      '\n' :: body.indented (depth + 1) ++ [')']

/-- The programs one below another, each on new lines. -/
def Program.indentedAll (depth : Nat) : List Program → List Char
  | [] => []
  | p :: ps => '\n' :: p.indented depth ++ Program.indentedAll depth ps

end

/-- The canonical text of a condition. -/
def Condition.text (c : Condition) : String :=
  String.ofList c.compact

/-- The canonical text of a program, on one line. -/
def Program.text (p : Program) : String :=
  String.ofList p.compact

/-- The text of a program with one line per node. -/
def Program.layoutText (p : Program) : String :=
  String.ofList (p.indented 0)

end RobotControl
