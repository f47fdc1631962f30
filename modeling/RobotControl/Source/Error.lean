/-!
What can be wrong with program text.

Each error keeps the piece of text at fault, without the white space around it. The wording is in
`SyntaxError.message` and nowhere else.
-/

namespace RobotControl

/-- What a piece of text was read as. -/
inductive Production where
  | program
  | condition
deriving DecidableEq, Repr

def Production.name : Production → String
  | program => "program"
  | condition => "condition"

/-- Why a text is no program or no condition. -/
inductive SyntaxError where
  /-- There is nothing but white space. -/
  | empty (expected : Production)
  /-- The text is not one form, or its tag is not one of the production's. -/
  | unrecognized (expected : Production) (text : String)
  /-- The parentheses of the whole text do not match. -/
  | unbalanced (text : String)
  /-- A tag has the wrong number of arguments. -/
  | arity (tag : String) (expected found : Nat)
  /-- An amount is not a finite number. -/
  | invalidNumber (text : String)
  /-- Forms are nested in more than `limit` levels. -/
  | tooDeep (limit : Nat)
deriving DecidableEq, Repr

def SyntaxError.message : SyntaxError → String
  | .empty expected => s!"empty {expected.name}"
  | .unrecognized expected text => s!"unrecognized {expected.name}: {text}"
  | .unbalanced text => s!"unbalanced parentheses in: {text}"
  | .arity tag expected found => s!"'{tag}' expects {expected} argument(s), found {found}"
  | .invalidNumber text => s!"invalid number: {text}"
  | .tooDeep limit => s!"forms nested deeper than {limit} levels"

end RobotControl
