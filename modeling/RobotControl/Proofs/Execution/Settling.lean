import RobotControl.Proofs.Arena.Soundness
import RobotControl.Proofs.Execution.Reaching
import RobotControl.Proofs.Execution.Resuming

/-!
Where a loop stops.

A loop is over when its test fails, and also after a pass that attempted nothing. The second is safe
because an execution touches a steadfast world with its attempts alone: a pass without an attempt
leaves the world that it found, and so would every pass after it.

* `Program.Idle`: a program has nothing to do in a world.
* `Program.idle_iff_next`: a program is idle where no step of it can be found.
* `Program.idle_of_run_zero`: in a steadfast world, a run that attempts nothing shows that the
  program was idle, and changes nothing.
* `repeatWhile_exit`: what the last pass of a loop was.
* `Program.loop_settles`: a loop stops only where it is idle.
-/

namespace RobotControl

section Idle

variable {σ : Type} [World σ]

/-- A program has nothing to do in a world: a run of it ends in the same world without an attempt,
even if every loop is allowed only one pass. -/
def Program.Idle (p : Program) (s : σ) : Prop :=
  ∀ passes, p.run (passes + 1) s = some (0, s)

/-- A run that attempts nothing reads what is read to find that nothing is to be done. -/
theorem Program.next_of_run_zero {p : Program} {passes : Nat} {s t : σ}
    (run : p.run passes s = some (0, t)) : p.next 0 s = (none, t) := by
  obtain ⟨left, state⟩ := Program.exists_run_iff.mp ⟨passes, run⟩
  rw [← p.walkAll_rest_zero] at left state
  rcases hn : p.next 0 s with ⟨_ | step, u⟩
  · rw [Program.walkAll_rest_of_none (Nat.zero_le _) hn] at state
    rw [← state]
  · obtain ⟨action, -, hw⟩ := Program.walkAll_rest_of_some (Nat.zero_le _) hn
    simp [hw, Task.walkAll_zero] at left

/-- Where no step can be found, a run ends within one pass of each loop. -/
theorem Program.run_of_next_none {p : Program} {s t : σ} (h : p.next 0 s = (none, t))
    (passes : Nat) : p.run (passes + 1) s = some (0, t) := by
  have quiet := Program.walkAll_rest_of_none (Nat.zero_le _) h 0
  rw [p.walkAll_rest_zero] at quiet
  have run := p.run_of_walk (show 1 ≤ passes + 1 by omega) (s := s) (by simp [quiet])
  simpa [quiet] using run

theorem Program.idle_iff_next {p : Program} {s : σ} : p.Idle s ↔ p.next 0 s = (none, s) := by
  constructor
  · intro idle
    exact Program.next_of_run_zero (idle 0)
  · intro h
    exact Program.run_of_next_none h

/-- Without leaves there is nothing to find, whatever the conditions answer. -/
theorem Program.next_of_stepCount_eq_zero {p : Program} (h : p.stepCount = 0) (s : σ) :
    ∃ t, p.next 0 s = (none, t) := by
  rcases hn : p.next 0 s with ⟨_ | step, t⟩
  · exact ⟨t, rfl⟩
  · obtain ⟨action, ha⟩ := p.exists_leaf?_of_next hn
    have bounds := Program.bounds_of_leaf? ha
    omega

/-! ### Idle parts -/

theorem Program.idle_seq {body : List Program} {s : σ} (h : ∀ p ∈ body, p.Idle s) :
    (Program.seq body).Idle s := by
  intro passes
  rw [Program.run]
  induction body with
  | nil => simp [Program.runAll]
  | cons p ps ih =>
      have first := h p (by simp) passes
      have rest := ih fun q hq => h q (by simp [hq])
      simp [Program.runAll, first, rest]

theorem Program.idle_branch_of_true {test : Condition} {thenPart : Program} {s : σ}
    (ht : test.evaluate s = (true, s)) (h : thenPart.Idle s) (elsePart : Program) :
    (Program.branch test thenPart elsePart).Idle s := by
  intro passes
  simp [Program.run, ht, h passes]

theorem Program.idle_loop_of_false {test : Condition} {s : σ} (ht : test.evaluate s = (false, s))
    (body : Program) : (Program.loop test body).Idle s := by
  intro passes
  simp [Program.run, repeatWhile, ht]

/-- A loop with an idle body makes one pass, even if its test holds for ever. -/
theorem Program.idle_loop_of_idle {test : Condition} {body : Program} {s : σ}
    (ht : test.evaluate s = (true, s)) (h : body.Idle s) : (Program.loop test body).Idle s := by
  intro passes
  simp [Program.run, repeatWhile, ht, h passes]

/-! ### The last pass -/

omit [World σ] in
/-- A loop ends with a test that fails or with a pass that attempts nothing. -/
theorem repeatWhile_exit {test : σ → Bool × σ} {pass : σ → Option (Nat × σ)}
    {passes attempted n : Nat} {s t : σ}
    (h : repeatWhile test pass passes attempted s = some (n, t)) :
    ∃ u, test u = (false, t) ∨ ∃ v, test u = (true, v) ∧ pass v = some (0, t) := by
  induction passes generalizing attempted s with
  | zero => cases h
  | succ passes ih =>
      rw [repeatWhile] at h
      rcases ht : test s with ⟨_ | _, v⟩
      · simp only [ht, Option.some.injEq, Prod.mk.injEq] at h
        exact ⟨s, .inl (by rw [ht, h.2])⟩
      · rcases hp : pass v with _ | ⟨_ | count, w⟩
        · simp [ht, hp] at h
        · simp only [ht, hp, Option.some.injEq, Prod.mk.injEq] at h
          exact ⟨s, .inr ⟨v, ht, by rw [hp, h.2]⟩⟩
        · simp only [ht, hp] at h
          exact ih h

end Idle

/-! ### Steadfast worlds -/

section Steadfast

variable {σ : Type} [World σ] [Steadfast σ]

/-- A condition only answers. -/
theorem Condition.eq_of_evaluate {c : Condition} {value : Bool} {s t : σ}
    (h : c.evaluate s = (value, t)) : t = s := by
  have reads := c.evaluate_reads s
  rw [h] at reads
  exact reads.eq

theorem Program.eq_of_next {p : Program} {last : Nat} {step : Option Nat} {s t : σ}
    (h : p.next last s = (step, t)) : t = s := by
  have reads := p.next_reads last s
  rw [h] at reads
  exact reads.eq

/-- **A run that attempts nothing changes nothing**, and the program had nothing to do. -/
theorem Program.idle_of_run_zero {p : Program} {passes : Nat} {s t : σ}
    (run : p.run passes s = some (0, t)) : t = s ∧ p.Idle s := by
  have h := Program.next_of_run_zero run
  obtain rfl := Program.eq_of_next h
  exact ⟨rfl, Program.idle_iff_next.mpr h⟩

/-- The last pass of a loop happened in the world that the loop leaves. -/
theorem Program.exit_of_run_loop {test : Condition} {body : Program} {passes n : Nat} {s t : σ}
    (run : (Program.loop test body).run passes s = some (n, t)) :
    test.evaluate t = (false, t) ∨ test.evaluate t = (true, t) ∧ body.Idle t := by
  rw [Program.run] at run
  obtain ⟨u, fails | ⟨v, holds, pass⟩⟩ := repeatWhile_exit run
  · obtain rfl := Condition.eq_of_evaluate fails
    exact .inl fails
  · obtain rfl := Condition.eq_of_evaluate holds
    obtain ⟨rfl, idle⟩ := Program.idle_of_run_zero pass
    exact .inr ⟨holds, idle⟩

/-- **A loop stops only where it has nothing left to do.** In a steadfast world:

* where a loop ends, its test fails or its body is idle, so that the loop itself is idle there and
  no step of it can be found;
* a run that attempts nothing leaves the world as it was;
* after a pass without an attempt, however many passes were still made, they would attempt nothing.

In every world a program without leaves ends without an attempt, whatever its loops test. -/
theorem Program.loop_settles :
    (∀ (test : Condition) (body : Program) (passes n : Nat) (s t : σ),
      (Program.loop test body).run passes s = some (n, t) →
        ((test.evaluate t).1 = false ∨ body.Idle t) ∧ (Program.loop test body).Idle t ∧
          (Program.loop test body).next 0 t = (none, t)) ∧
    (∀ (p : Program) (passes : Nat) (s t : σ), p.run passes s = some (0, t) → t = s) ∧
    (∀ (test : Condition) (body : Program) (passes : Nat) (r s t : σ),
      test.evaluate r = (true, s) → body.run passes s = some (0, t) →
        ∀ more, (Program.seq (List.replicate more (.branch test body (.seq [])))).Idle t) ∧
    ∀ (τ : Type) [World τ] (p : Program), p.stepCount = 0 →
      ∀ (passes : Nat) (s : τ), ∃ t, p.run (passes + 1) s = some (0, t) := by
  refine ⟨?_, ?_, ?_, ?_⟩
  · intro test body passes n s t run
    obtain fails | ⟨holds, pass⟩ := Program.exit_of_run_loop run
    · have idle := Program.idle_loop_of_false fails body
      exact ⟨.inl (by rw [fails]), idle, Program.idle_iff_next.mp idle⟩
    · have idle := Program.idle_loop_of_idle holds pass
      exact ⟨.inr pass, idle, Program.idle_iff_next.mp idle⟩
  · intro p passes s t run
    exact (Program.idle_of_run_zero run).1
  · intro test body passes r s t holds run more
    obtain ⟨rfl, idle⟩ := Program.idle_of_run_zero run
    obtain rfl := Condition.eq_of_evaluate holds
    apply Program.idle_seq
    intro p hp
    rw [List.eq_of_mem_replicate hp]
    exact Program.idle_branch_of_true holds idle (.seq [])
  · intro τ _ p empty passes s
    obtain ⟨t, h⟩ := Program.next_of_stepCount_eq_zero empty s
    exact ⟨t, Program.run_of_next_none h passes⟩

end Steadfast

/-- The robot in the corridor takes the battery under it. The test of the loop goes on to hold, but
the next pass finds no battery. A loop over nothing ends in that world as well. -/
theorem Program.loop_settles_corridor :
    let pass : Program := .branch (.sensor .atItem) (.act .pickUpAndUse) (.seq [])
    let patrol : Program := .loop (.constant true) pass
    let vigil : Program := .loop (.constant true) (.seq [])
    ∃ a b c : Arena, Arena.corridor.build {} = .ok a ∧ patrol.run 9 a = some (1, b) ∧
      ((Condition.constant true).evaluate b = (true, b) ∧ pass.run 9 b = some (0, b)) ∧
      vigil.stepCount = 0 ∧ vigil.run 1 b = some (0, c) ∧
      pass.Idle b ∧ patrol.Idle b ∧ patrol.next 0 b = (none, b) ∧ c = b ∧
      (Program.seq (List.replicate 3 (.branch (.constant true) pass (.seq [])))).Idle b := by
  intro pass patrol vigil
  obtain ⟨settles, keeps, quiet, ends⟩ := Program.loop_settles (σ := Arena)
  obtain ⟨a, b, built, run, again⟩ : ∃ a b : Arena, Arena.corridor.build {} = .ok a ∧
      patrol.run 9 a = some (1, b) ∧ pass.run 9 b = some (0, b) := ⟨_, _, rfl, rfl, rfl⟩
  obtain ⟨stops, idle, finished⟩ := settles (.constant true) pass 9 1 a b run
  have more := quiet (.constant true) pass 9 b b b rfl again 3
  obtain ⟨c, waits⟩ := ends Arena vigil rfl 0 b
  have pause : pass.Idle b := by
    rcases stops with fails | pause
    · cases fails
    · exact pause
  exact ⟨a, b, c, built, run, ⟨rfl, again⟩, rfl, waits, pause, idle, finished,
    keeps vigil 1 b c waits, more⟩

end RobotControl
