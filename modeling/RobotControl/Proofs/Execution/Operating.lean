import RobotControl.Proofs.Execution.Reaching
import RobotControl.Proofs.Execution.Stepping

/-!
What a step of a runner comes to, and the worlds that runners leave.

* `Runner.step_cases`: a step finds no program, finds nothing to do, or attempts one leaf.
* `Runner.step_never_fails`, `Runner.stepN_never_fails`: a runner with a program can be stepped,
  wherever its cursor is.
* `Runner.step_reaches`, `Runner.stepN_reaches`: steps only read and attempt.
* `Runner.deliveries`: what steps deliver, one after another.
* `Operated`: the worlds that direct actions, steps and runs of any programs come to.
-/

namespace RobotControl

variable {σ : Type} [World σ]

namespace Runner

/-- **A step finds no program, finds nothing to do, or attempts one leaf of its program.** -/
theorem step_cases (r : Runner) (s : σ) :
    (r.program = none ∧ r.step s = .error .noProgram) ∨
      ∃ p, r.program = some p ∧
        ((∃ t, p.next r.cursor s = (none, t) ∧ r.step s = .ok (.done, r, t)) ∨
          ∃ index t action, p.next r.cursor s = (some index, t) ∧ p.leaf? index = some action ∧
            r.step s = .ok (.executed index (perform action t).1, ⟨some p, index⟩,
              (perform action t).2)) := by
  obtain ⟨program, cursor⟩ := r
  cases program with
  | none => exact .inl ⟨rfl, rfl⟩
  | some p =>
      refine .inr ⟨p, rfl, ?_⟩
      rcases hn : p.next cursor s with ⟨_ | index, t⟩
      · exact .inl ⟨t, rfl, step_of_none hn⟩
      · obtain ⟨action, ha⟩ := p.exists_leaf?_of_next hn
        exact .inr ⟨index, t, action, rfl, ha, step_of_some hn ha⟩

/-- **A runner with a program can take a step, wherever its cursor is.** -/
theorem step_never_fails (p : Program) (cursor : Nat) (s : σ) :
    ∃ outcome next t, step ⟨some p, cursor⟩ s = .ok (outcome, ⟨some p, next⟩, t) := by
  rcases step_cases ⟨some p, cursor⟩ s with ⟨habsent, -⟩ | ⟨q, hq, ⟨t, -, done⟩ | executed⟩
  · cases habsent
  · exact ⟨_, _, t, done⟩
  · obtain ⟨index, t, action, -, -, executed⟩ := executed
    cases hq
    exact ⟨_, index, _, executed⟩

theorem stepMore_never_fails (p : Program) (n delivered cursor : Nat) (s : σ) :
    ∃ count next t, stepMore n delivered ⟨some p, cursor⟩ s = .ok (count, ⟨some p, next⟩, t) := by
  induction n generalizing delivered cursor s with
  | zero => exact ⟨delivered, cursor, s, rfl⟩
  | succ n ih =>
      obtain ⟨outcome, next, t, hstep⟩ := step_never_fails p cursor s
      rw [stepMore, hstep]
      cases outcome with
      | done => exact ⟨delivered, next, t, rfl⟩
      | executed => exact ih (delivered + 1) next t

/-- **A runner with a program can take any number of steps, wherever its cursor is.** -/
theorem stepN_never_fails (p : Program) (n cursor : Nat) (s : σ) :
    ∃ count next t, stepN n ⟨some p, cursor⟩ s = .ok (count, ⟨some p, next⟩, t) :=
  stepMore_never_fails p n 0 cursor s

theorem step_reaches {r r' : Runner} {s t : σ} {outcome : Step}
    (h : r.step s = .ok (outcome, r', t)) : Reaches s t := by
  rcases r.step_cases s with ⟨-, none⟩ | ⟨p, -, ⟨u, hn, done⟩ | ⟨index, u, action, hn, -, executed⟩⟩
  · rw [none] at h
    cases h
  · rw [done] at h
    cases h
    have looked := p.next_reads r.cursor s
    rw [hn] at looked
    exact looked.reaches
  · rw [executed] at h
    cases h
    have looked := p.next_reads r.cursor s
    rw [hn] at looked
    exact looked.reaches.trans (perform_reaches action u)

theorem stepMore_reaches {n delivered count : Nat} {r r' : Runner} {s t : σ}
    (h : stepMore n delivered r s = .ok (count, r', t)) : Reaches s t := by
  induction n generalizing delivered r s with
  | zero =>
      cases h
      exact .refl
  | succ n ih =>
      rw [stepMore] at h
      split at h
      · cases h
      · rename_i hs
        cases h
        exact step_reaches hs
      · rename_i hs
        exact (step_reaches hs).trans (ih h)

theorem stepN_reaches {n count : Nat} {r r' : Runner} {s t : σ}
    (h : r.stepN n s = .ok (count, r', t)) : Reaches s t :=
  stepMore_reaches h

/-- What up to `n` steps deliver, in order: the number of each step with its attempt. -/
def deliveries : (n : Nat) → Runner → σ → List (Nat × Attempt)
  | 0, _, _ => []
  | n + 1, r, s => match r.step s with
    | .ok (.executed index attempt, r, s) => (index, attempt) :: deliveries n r s
    | _ => []

/-- As many steps are delivered as are counted. -/
theorem length_deliveries_of_stepMore {n delivered count : Nat} {r r' : Runner} {s t : σ}
    (h : stepMore n delivered r s = .ok (count, r', t)) :
    count = delivered + (deliveries n r s).length := by
  induction n generalizing delivered r s with
  | zero =>
      cases h
      rfl
  | succ n ih =>
      rw [stepMore] at h
      split at h
      · cases h
      · rename_i hs
        cases h
        simp [deliveries, hs]
      · rename_i hs
        simp only [deliveries, hs, List.length_cons]
        have := ih h
        omega

theorem length_deliveries_of_stepN {n count : Nat} {r r' : Runner} {s t : σ}
    (h : r.stepN n s = .ok (count, r', t)) : count = (r.deliveries n s).length := by
  simpa using length_deliveries_of_stepMore h

end Runner

/-- The world comes from another by direct actions, by steps of any runners and by runs of any
programs, in any order. A run may be broken off after some attempts. -/
inductive Operated (s : σ) : σ → Prop where
  | refl : Operated s s
  | action {t : σ} (action : Action) : Operated s t → Operated s (perform action t).2
  | steps {n count : Nat} {r r' : Runner} {t u : σ} :
      Operated s t → r.stepN n t = .ok (count, r', u) → Operated s u
  | run {p : Program} {passes n : Nat} {t u : σ} :
      Operated s t → p.run passes t = some (n, u) → Operated s u
  | interrupted (p : Program) (budget : Nat) {t : σ} :
      Operated s t → Operated s (p.walk budget t).state

theorem Operated.reaches {s t : σ} (h : Operated s t) : Reaches s t := by
  induction h with
  | refl => exact .refl
  | action action _ ih => exact ih.trans (perform_reaches action _)
  | steps _ hs ih => exact ih.trans (Runner.stepN_reaches hs)
  | run _ hr ih => exact ih.trans (Program.run_reaches hr)
  | interrupted p budget _ ih => exact ih.trans (p.walk_reaches budget _)

end RobotControl
