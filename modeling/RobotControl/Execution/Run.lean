import RobotControl.Execution.Evaluation

/-!
Running a program to its end.

A run attempts actions in the order of the tree and answers how many it attempted, refused ones
included. A loop ends when its test fails, and also after a pass that attempted nothing, because a
pass like that would repeat for ever.

Other loops may still never end. `Program.run` therefore bounds the passes of each loop and answers
`none` when a loop needs more; a larger bound never changes an answer that was found.
-/

namespace RobotControl

variable {σ : Type} [World σ]

/-- Repeats a pass while a test holds, at most `passes` times, adding what the passes attempt to
`attempted`. A pass that attempts nothing is the last. -/
def repeatWhile (test : σ → Bool × σ) (pass : σ → Option (Nat × σ)) :
    (passes : Nat) → (attempted : Nat) → σ → Option (Nat × σ)
  | 0, _, _ => none
  | passes + 1, attempted, s => match test s with
    | (false, s) => some (attempted, s)
    | (true, s) => match pass s with
      | none => none
      | some (0, s) => some (attempted, s)
      | some (count + 1, s) => repeatWhile test pass passes (attempted + (count + 1)) s

mutual

/-- Runs a program, each of its loops for fewer than `passes` passes. Answers the number of
attempted actions, or nothing if a loop was not over by then. -/
def Program.run (passes : Nat) : Program → σ → Option (Nat × σ)
  | .act action, s => some (1, (perform action s).2)
  | .seq body, s => Program.runAll passes body s
  | .branch test thenPart elsePart, s => match test.evaluate s with
    | (true, s) => thenPart.run passes s
    | (false, s) => elsePart.run passes s
  | .loop test body, s => repeatWhile test.evaluate (body.run passes) passes 0 s

/-- Runs programs one after another. -/
def Program.runAll (passes : Nat) : List Program → σ → Option (Nat × σ)
  | [], s => some (0, s)
  | p :: ps, s => match p.run passes s with
    | none => none
    | some (first, s) => match Program.runAll passes ps s with
      | none => none
      | some (rest, s) => some (first + rest, s)

end

end RobotControl
