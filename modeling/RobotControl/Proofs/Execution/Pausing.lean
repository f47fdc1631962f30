import RobotControl.Proofs.Execution.History
import RobotControl.Proofs.Execution.Settling

/-!
Pausing.

Between two calls a runner keeps its cursor and nothing else, and every call finds its place again
in the world as it is. In a steadfast world nothing is lost by this: however an execution is cut into
calls, and whatever is asked between them, it is the execution that a single call would have made.

* `Runner.Request`, `Runner.serve`: the calls of a driver, answered one after another.
* `Runner.stepMore_eq_bind_stepN`: counting may begin anywhere.
* `Runner.eq_of_done`: in a steadfast world a step that is done changes nothing.
* `Runner.stepMore_add`: there, steps can be taken in two parts.
* `Runner.serve_eq_stepMore`: there, calls come to as many steps as they ask for together.
* `Runner.pausing_invisible`: pauses do not matter, and what is done stays done.
-/

namespace RobotControl.Runner

/-- A call of a driver. -/
inductive Request where
  | hasNext
  | step
  | stepN (n : Nat)
deriving DecidableEq, Repr

/-- The number of steps that a call asks for. -/
def Request.steps : Request → Nat
  | .hasNext => 0
  | .step => 1
  | .stepN n => n

section Calls

variable {σ : Type} [World σ]

/-- Answers a call and adds the steps that it delivers to those delivered before. -/
def answer (delivered : Nat) (r : Runner) (s : σ) : Request → Except RunnerError (Nat × Runner × σ)
  | .hasNext => do
    let (_, s) ← r.hasNext s
    return (delivered, r, s)
  | .step => do
    match ← r.step s with
    | (.executed _ _, r, s) => return (delivered + 1, r, s)
    | (.done, r, s) => return (delivered, r, s)
  | .stepN n => do
    let (count, r, s) ← r.stepN n s
    return (delivered + count, r, s)

/-- Answers calls one after another. -/
def serve : List Request → (delivered : Nat) → Runner → σ → Except RunnerError (Nat × Runner × σ)
  | [], delivered, r, s => .ok (delivered, r, s)
  | request :: rest, delivered, r, s => do
    let (delivered, r, s) ← r.answer delivered s request
    serve rest delivered r s

/-! ### Counting steps -/

/-- Steps are counted on from whatever was delivered before. -/
theorem stepMore_eq_bind_stepN (n delivered : Nat) (r : Runner) (s : σ) :
    stepMore n delivered r s =
      (do let (count, r, s) ← r.stepN n s; return (delivered + count, r, s)) := by
  suffices h : ∀ before, stepMore n (delivered + before) r s =
      (do let (count, r, s) ← stepMore n before r s; return (delivered + count, r, s)) from h 0
  intro before
  induction n generalizing before r s with
  | zero => rfl
  | succ n ih =>
      rw [stepMore, stepMore]
      rcases r.step s with error | ⟨_ | _, next, t⟩
      · rfl
      · exact ih next t (before + 1)
      · rfl

/-- Where a step is done and changes nothing, no steps are delivered. -/
theorem stepMore_of_done {r : Runner} {s : σ} (done : r.step s = .ok (.done, r, s))
    (n delivered : Nat) : stepMore n delivered r s = .ok (delivered, r, s) := by
  cases n with
  | zero => rfl
  | succ n => rw [stepMore, done]

end Calls

/-! ### Steadfast worlds -/

section Steadfast

variable {σ : Type} [World σ] [Steadfast σ]

/-- A step that is done leaves the runner and the world as they were. -/
theorem eq_of_done {r r' : Runner} {s t : σ} (done : r.step s = .ok (.done, r', t)) :
    r' = r ∧ t = s := by
  rcases r.step_cases s with ⟨-, none⟩ | ⟨p, -, ⟨u, hn, ended⟩ | ⟨index, u, action, -, -, executed⟩⟩
  · rw [none] at done
    cases done
  · rw [ended] at done
    cases done
    exact ⟨rfl, Program.eq_of_next hn⟩
  · rw [executed] at done
    cases done

/-- **Steps can be taken in two parts.** If the first part stops early, the second finds the same
world and stops at once. -/
theorem stepMore_add (n m delivered : Nat) (r : Runner) (s : σ) :
    stepMore (n + m) delivered r s =
      (do let (delivered, r, s) ← stepMore n delivered r s; stepMore m delivered r s) := by
  induction n generalizing delivered r s with
  | zero =>
      rw [Nat.zero_add]
      rfl
  | succ n ih =>
      rw [Nat.succ_add, stepMore, stepMore]
      rcases hs : r.step s with error | ⟨_ | _, next, t⟩
      · rfl
      · exact ih (delivered + 1) next t
      · obtain ⟨rfl, rfl⟩ := eq_of_done hs
        exact (stepMore_of_done hs m delivered).symm

/-- A call comes to as many steps as it asks for. -/
theorem answer_eq_stepMore (p : Program) (delivered cursor : Nat) (s : σ) (request : Request) :
    answer delivered ⟨some p, cursor⟩ s request =
      stepMore request.steps delivered ⟨some p, cursor⟩ s := by
  cases request with
  | hasNext =>
      have same : (p.hasNext cursor s).2 = s := Program.eq_of_next rfl
      show Except.ok (delivered, (⟨some p, cursor⟩ : Runner), (p.hasNext cursor s).2) = _
      rw [same]
      rfl
  | step =>
      rw [answer, Request.steps, stepMore]
      rcases step ⟨some p, cursor⟩ s with error | ⟨_ | _, next, t⟩ <;> rfl
  | stepN n => exact (stepMore_eq_bind_stepN n delivered _ s).symm

/-- **Calls come to as many steps as they ask for together.** -/
theorem serve_eq_stepMore (p : Program) (requests : List Request) (delivered cursor : Nat) (s : σ) :
    serve requests delivered ⟨some p, cursor⟩ s =
      stepMore (requests.map Request.steps).sum delivered ⟨some p, cursor⟩ s := by
  induction requests generalizing delivered cursor s with
  | nil => rfl
  | cons request rest ih =>
      obtain ⟨count, next, t, first⟩ := stepMore_never_fails p request.steps delivered cursor s
      rw [serve, answer_eq_stepMore, List.map_cons, List.sum_cons, stepMore_add, first]
      exact ih count next t

/-- **Pausing does not matter.** In a steadfast world the calls of a driver leave the same cursor
and the same world, and deliver as many steps in all, as a single call for all the steps that they
ask for. A step that is done changes nothing, so that the next one is done as well, and no call delivers
or changes anything from then on. -/
theorem pausing_invisible (p : Program) (cursor : Nat) (s : σ) :
    (∀ requests, ∃ count next t,
      serve requests 0 ⟨some p, cursor⟩ s = .ok (count, ⟨some p, next⟩, t) ∧
        stepN (requests.map Request.steps).sum ⟨some p, cursor⟩ s =
          .ok (count, ⟨some p, next⟩, t)) ∧
    ∀ r t, step ⟨some p, cursor⟩ s = .ok (.done, r, t) →
      r = ⟨some p, cursor⟩ ∧ t = s ∧ step r t = .ok (.done, r, t) ∧
        ∀ requests, serve requests 0 r t = .ok (0, r, t) := by
  constructor
  · intro requests
    obtain ⟨count, next, t, h⟩ :=
      stepN_never_fails p (requests.map Request.steps).sum cursor s
    exact ⟨count, next, t, (serve_eq_stepMore p requests 0 cursor s).trans h, h⟩
  · intro r t done
    obtain ⟨rfl, rfl⟩ := eq_of_done done
    refine ⟨rfl, rfl, done, ?_⟩
    intro requests
    rw [serve_eq_stepMore]
    exact stepMore_of_done done _ 0

end Steadfast

/-- The robot in the corridor takes the battery and turns for as long as it can. It is asked in
between whether there is a next step, and it is asked for more steps than there are. -/
theorem pausing_invisible_corridor :
    let patrol : Program :=
      .seq [.act .pickUpAndUse, .loop (.energyAtLeast 100.0) (.act .turnClockwise)]
    let requests : List Request := [.stepN 2, .hasNext, .step, .hasNext, .stepN 9]
    ∃ a b : Arena, Arena.corridor.build {} = .ok a ∧ step ⟨some patrol, 2⟩ b =
        .ok (.done, ⟨some patrol, 2⟩, b) ∧
      serve requests 0 ⟨some patrol, 0⟩ a = .ok (7, ⟨some patrol, 2⟩, b) ∧
      stepN 12 ⟨some patrol, 0⟩ a = .ok (7, ⟨some patrol, 2⟩, b) ∧
      serve requests 0 ⟨some patrol, 2⟩ b = .ok (0, ⟨some patrol, 2⟩, b) := by
  intro patrol requests
  obtain ⟨a, b, built, whole, done⟩ : ∃ a b : Arena, Arena.corridor.build {} = .ok a ∧
      stepN 12 ⟨some patrol, 0⟩ a = .ok (7, ⟨some patrol, 2⟩, b) ∧
        step ⟨some patrol, 2⟩ b = .ok (.done, ⟨some patrol, 2⟩, b) := ⟨_, _, rfl, rfl, rfl⟩
  obtain ⟨count, next, t, parts, same⟩ := (pausing_invisible patrol 0 a).1 requests
  have idle := ((pausing_invisible patrol 2 b).2 _ b done).2.2.2 requests
  cases whole.symm.trans same
  exact ⟨a, b, built, done, parts, whole, idle⟩

end RobotControl.Runner
