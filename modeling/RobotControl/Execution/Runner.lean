import RobotControl.Execution.Run
import RobotControl.Execution.Step

/-!
Runners.

A runner holds a program and a cursor, the number of the action that was delivered last. Stepping
moves the cursor, whether the world applied the action or refused it; a full run leaves the cursor
alone. Attaching or detaching a program sets the cursor back to 0.
-/

namespace RobotControl

/-- What one step of a runner came to. -/
inductive Step where
  /-- The action with this number was attempted. -/
  | executed (index : Nat) (attempt : Attempt)
  /-- No action follows in the world as it is. -/
  | done
deriving DecidableEq, Repr

/-- Why a runner cannot do what it was asked. -/
inductive RunnerError where
  | noProgram
  | step (error : StepError)
deriving DecidableEq, Repr

def RunnerError.message : RunnerError → String
  | .noProgram => "no program attached"
  | .step error => error.message

structure Runner where
  program : Option Program
  cursor : Nat

namespace Runner

/-- A runner without a program. -/
def empty : Runner := ⟨none, 0⟩

/-- A runner at the beginning of a program. -/
def ofProgram (p : Program) : Runner := ⟨some p, 0⟩

/-- Puts another program in place of the attached one. -/
def attach (_ : Runner) (p : Program) : Runner := ofProgram p

/-- Takes the program out. -/
def detach (r : Runner) : Option Program × Runner := (r.program, empty)

/-- The attached program, which must be there. -/
def attached (r : Runner) : Except RunnerError Program :=
  match r.program with
  | some p => .ok p
  | none => .error .noProgram

variable {σ : Type} [World σ]

def hasNext (r : Runner) (s : σ) : Except RunnerError (Bool × σ) :=
  r.attached.map fun p => p.hasNext r.cursor s

/-- Attempts the next action and moves the cursor to it. -/
def step (r : Runner) (s : σ) : Except RunnerError (Step × Runner × σ) := do
  let p ← r.attached
  match p.next r.cursor s with
  | (none, s) => return (.done, r, s)
  | (some index, s) =>
    match p.performStep index s with
    | .ok (attempt, s) => return (.executed index attempt, { r with cursor := index }, s)
    | .error error => .error (.step error)

/-- Takes up to `n` more steps after `delivered` ones. -/
def stepMore : (n : Nat) → (delivered : Nat) → Runner → σ → Except RunnerError (Nat × Runner × σ)
  | 0, delivered, r, s => .ok (delivered, r, s)
  | n + 1, delivered, r, s => match r.step s with
    | .error error => .error error
    | .ok (.done, r, s) => .ok (delivered, r, s)
    | .ok (.executed _ _, r, s) => stepMore n (delivered + 1) r s

/-- Takes up to `n` steps and answers how many were delivered. Nothing is asked of the runner when
`n` is 0. -/
def stepN (n : Nat) (r : Runner) (s : σ) : Except RunnerError (Nat × Runner × σ) :=
  stepMore n 0 r s

/-- Runs the attached program to its end with a bound on the passes of each loop. The cursor does
not move. -/
def run (passes : Nat) (r : Runner) (s : σ) : Except RunnerError (Option (Nat × σ)) :=
  r.attached.map fun p => p.run passes s

end Runner

end RobotControl
