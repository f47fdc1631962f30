import RobotControl.Action

/-!
Programs.

A program is a finite tree. Its leaves are actions; sequences, branches and loops order them, and
branches and loops consult conditions. A condition only reads the world.

`leaves` lists the actions of a program from left to right, each as often as it is written: both
parts of a branch count, and the body of a loop counts once. Steps are numbered along this list.
-/

namespace RobotControl

/-- A test on the world. -/
inductive Condition where
  | constant (value : Bool)
  | sensor (which : Sensor)
  /-- The stored energy is at least `amount`. -/
  | energyAtLeast (amount : Float)
  | and (operands : List Condition)
  | or (operands : List Condition)
  | not (operand : Condition)
deriving Inhabited

/-- A program. -/
inductive Program where
  | act (action : Action)
  | seq (body : List Program)
  | branch (test : Condition) (thenPart elsePart : Program)
  | loop (test : Condition) (body : Program)
deriving Inhabited

/-! ### Equality

Trees are compared node by node, and amounts as numbers: the two zeros are equal. -/

mutual

def Condition.agrees : Condition → Condition → Bool
  | .constant v, .constant w => v == w
  | .sensor s, .sensor t => s == t
  | .energyAtLeast x, .energyAtLeast y => x == y
  | .and cs, .and ds => Condition.agreeAll cs ds
  | .or cs, .or ds => Condition.agreeAll cs ds
  | .not c, .not d => c.agrees d
  | _, _ => false

def Condition.agreeAll : List Condition → List Condition → Bool
  | [], [] => true
  | c :: cs, d :: ds => c.agrees d && Condition.agreeAll cs ds
  | _, _ => false

end

instance : BEq Condition := ⟨Condition.agrees⟩

mutual

def Program.agrees : Program → Program → Bool
  | .act a, .act b => a == b
  | .seq ps, .seq qs => Program.agreeAll ps qs
  | .branch c p q, .branch d r s => c == d && p.agrees r && q.agrees s
  | .loop c p, .loop d q => c == d && p.agrees q
  | _, _ => false

def Program.agreeAll : List Program → List Program → Bool
  | [], [] => true
  | p :: ps, q :: qs => p.agrees q && Program.agreeAll ps qs
  | _, _ => false

end

instance : BEq Program := ⟨Program.agrees⟩

/-! ### Leaves and steps -/

mutual

/-- The actions of a program from left to right. -/
def Program.leaves : Program → List Action
  | .act action => [action]
  | .seq body => Program.leavesOf body
  | .branch _ thenPart elsePart => thenPart.leaves ++ elsePart.leaves
  | .loop _ body => body.leaves

def Program.leavesOf : List Program → List Action
  | [] => []
  | p :: ps => p.leaves ++ Program.leavesOf ps

end

mutual

/-- The number of steps of a program: how many actions it is written with. -/
def Program.stepCount : Program → Nat
  | .act _ => 1
  | .seq body => Program.stepCountOf body
  | .branch _ thenPart elsePart => thenPart.stepCount + elsePart.stepCount
  | .loop _ body => body.stepCount

def Program.stepCountOf : List Program → Nat
  | [] => 0
  | p :: ps => p.stepCount + Program.stepCountOf ps

end

mutual

theorem Program.length_leaves : ∀ p : Program, p.leaves.length = p.stepCount
  | .act _ => rfl
  | .seq body => Program.length_leavesOf body
  | .branch _ thenPart elsePart => by
    simp [leaves, stepCount, thenPart.length_leaves, elsePart.length_leaves]
  | .loop _ body => body.length_leaves

theorem Program.length_leavesOf :
    ∀ ps : List Program, (Program.leavesOf ps).length = Program.stepCountOf ps
  | [] => rfl
  | p :: ps => by
    simp [leavesOf, stepCountOf, p.length_leaves, Program.length_leavesOf ps]

end

end RobotControl
