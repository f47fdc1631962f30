import RobotControl.Execution.Evaluation

/-!
Single steps.

The actions of a program are numbered from 1 along its leaves, and an execution is resumed from the
number of the last action that was attempted; 0 stands for none. `Program.next` finds the action to
attempt next, reading conditions as they are now, and `Program.performStep` attempts it.

Numbers are local to each node. The parts of a sequence take consecutive ranges, a branch numbers
its two parts one after the other although only one of them runs, and a loop numbers every pass
alike.
-/

namespace RobotControl

/-- A number that leads to no action. -/
inductive StepError where
  /-- No action follows step `last` in the world as it is. -/
  | nothingFollows (last : Nat)
  /-- No action of the node has the number `step`. -/
  | noSuchStep (step : Nat)
deriving DecidableEq, Repr

def StepError.message : StepError → String
  | .nothingFollows last => s!"next_step_index: no primitive action follows step {last}"
  | .noSuchStep step => s!"run_step: step {step} does not address a primitive action"

variable {σ : Type} [World σ]

mutual

/-- The number of the action that follows step `last`, if one does, and the world after the
conditions that were read on the way. -/
def Program.next : Program → (last : Nat) → σ → Option Nat × σ
  | .act _, last, s => (if last = 0 then some 1 else none, s)
  | .seq body, last, s => Program.nextIn body last s
  | .branch test thenPart elsePart, last, s =>
    let below := thenPart.stepCount
    if last = 0 then
      match test.evaluate s with
      | (true, s) => thenPart.next 0 s
      | (false, s) =>
        let (step, s) := elsePart.next 0 s
        (step.map (below + ·), s)
    else if last ≤ below then thenPart.next last s
    else
      let (step, s) := elsePart.next (last - below) s
      (step.map (below + ·), s)
  | .loop test body, last, s =>
    if last = 0 then
      match test.evaluate s with
      | (true, s) => body.next 0 s
      | (false, s) => (none, s)
    else match body.next last s with
      | (some step, s) => (some step, s)
      | (none, s) => match test.evaluate s with
        | (true, s) => body.next 0 s
        | (false, s) => (none, s)

/-- The same in programs that follow one another. A part is asked also when `last` is its very last
number, because a loop may then begin another pass. -/
def Program.nextIn : List Program → (last : Nat) → σ → Option Nat × σ
  | [], _, s => (none, s)
  | p :: ps, last, s =>
    let below := p.stepCount
    let later (s : σ) : Option Nat × σ :=
      let (step, s) := Program.nextIn ps (last - below) s
      (step.map (below + ·), s)
    if last ≤ below then
      match p.next last s with
      | (some step, s) => (some step, s)
      | (none, s) => later s
    else later s

end

/-- An action follows step `last`. -/
def Program.hasNext (p : Program) (last : Nat) (s : σ) : Bool × σ :=
  let (step, s) := p.next last s
  (step.isSome, s)

/-- The number of the action that follows step `last`, where there must be one. -/
def Program.nextStep (p : Program) (last : Nat) (s : σ) : Except StepError Nat × σ :=
  match p.next last s with
  | (some step, s) => (.ok step, s)
  | (none, s) => (.error (.nothingFollows last), s)

mutual

/-- Attempts the action with the given number. -/
def Program.performStep : Program → (step : Nat) → σ → Except StepError (Attempt × σ)
  | .act action, step, s => if step = 1 then .ok (perform action s) else .error (.noSuchStep step)
  | .seq body, step, s => (Program.performStepIn body step s).getD (.error (.noSuchStep step))
  | .branch _ thenPart elsePart, step, s =>
    if step = 0 then .error (.noSuchStep step)
    else if step ≤ thenPart.stepCount then thenPart.performStep step s
    else elsePart.performStep (step - thenPart.stepCount) s
  | .loop _ body, step, s => body.performStep step s

/-- The same in programs that follow one another: the one whose range holds the number does it. -/
def Program.performStepIn :
    List Program → (step : Nat) → σ → Option (Except StepError (Attempt × σ))
  | [], _, _ => none
  | p :: ps, step, s =>
    if 0 < step ∧ step ≤ p.stepCount then some (p.performStep step s)
    else Program.performStepIn ps (step - p.stepCount) s

end

end RobotControl
