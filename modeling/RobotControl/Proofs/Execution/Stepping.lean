import RobotControl.Execution.Runner
import RobotControl.Proofs.Execution.Resuming
import RobotControl.World.Scripted

/-!
Stepping a runner.

* `Runner.stepN_eq_walk`: steps from a cursor are a walk over the rest of the program, and the
  cursor ends at the leaf that was visited last.
* `Runner.stepN_eq_run`: stepping and running attempt, read and leave the same.
-/

namespace RobotControl

namespace Runner

variable {σ : Type} [World σ]

theorem step_of_none {p : Program} {last : Nat} {s t : σ} (hn : p.next last s = (none, t)) :
    step ⟨some p, last⟩ s = .ok (.done, ⟨some p, last⟩, t) := by
  simp only [step, attached, bind, Except.bind, hn]
  rfl

/-- A step attempts the leaf that comes next and moves the cursor to it, whatever the outcome. -/
theorem step_of_some {p : Program} {last index : Nat} {s t : σ} {action : Action}
    (hn : p.next last s = (some index, t)) (ha : p.leaf? index = some action) :
    step ⟨some p, last⟩ s =
      .ok (.executed index (perform action t).1, ⟨some p, index⟩, (perform action t).2) := by
  simp only [step, attached, bind, Except.bind, hn, p.performStep_of_leaf? t ha]
  rfl

theorem stepMore_eq_walk (p : Program) (n delivered : Nat) {last : Nat} (h : last ≤ p.stepCount)
    (s : σ) :
    stepMore n delivered ⟨some p, last⟩ s =
      .ok (delivered + (Task.walkAll (p.rest last) n s).visited.length,
        ⟨some p, (Task.walkAll (p.rest last) n s).visited.getLastD last⟩,
        (Task.walkAll (p.rest last) n s).state) := by
  induction n generalizing delivered last s with
  | zero => rw [Task.walkAll_zero]; rfl
  | succ n ih =>
      rcases hn : p.next last s with ⟨_ | index, t⟩
      · rw [Program.walkAll_rest_of_none h hn]
        simp only [stepMore, step_of_none hn]
        rfl
      · obtain ⟨action, ha, hw⟩ := Program.walkAll_rest_of_some h hn
        simp only [stepMore, step_of_some hn ha, ih _ (Program.bounds_of_leaf? ha).2, hw]
        simp only [Walk.visit_visited, Walk.visit_state, List.length_cons, List.getLastD_cons,
          Nat.add_assoc, Nat.add_comm 1]

/-- Steps from the beginning are a full run that is broken off after as many attempts. -/
theorem stepN_eq_walk (p : Program) (n : Nat) (s : σ) :
    (ofProgram p).stepN n s =
      .ok ((p.walk n s).visited.length, ⟨some p, (p.walk n s).visited.getLastD 0⟩,
        (p.walk n s).state) := by
  have steps := stepMore_eq_walk p n 0 (Nat.zero_le _) s
  rwa [p.walkAll_rest_zero, Nat.zero_add] at steps

/-- After steps that were all delivered, one more step is done exactly when the full run has no
further attempt to make. -/
theorem step_after_stepN {p : Program} {n : Nat} {s : σ} (used : (p.walk n s).left = 0) :
    ((p.walk (n + 1) s).left = 1 ∧
        step ⟨some p, (p.walk n s).visited.getLastD 0⟩ (p.walk n s).state =
          .ok (.done, ⟨some p, (p.walk n s).visited.getLastD 0⟩, (p.walk (n + 1) s).state)) ∨
      ((p.walk (n + 1) s).left = 0 ∧ ∃ index attempt r t,
        step ⟨some p, (p.walk n s).visited.getLastD 0⟩ (p.walk n s).state =
          .ok (.executed index attempt, r, t)) := by
  rw [← p.walkAll_rest_zero] at used
  obtain ⟨cursor, hc, hb, resumed⟩ := p.walkAll_rest_add 1 (Nat.zero_le _) used
  rw [p.walkAll_rest_zero, p.walkAll_rest_zero] at resumed
  rw [p.walkAll_rest_zero] at hc
  rw [resumed, hc, Walk.andThen_left, Walk.andThen_state]
  rcases hn : p.next cursor (p.walk n s).state with ⟨_ | index, t⟩
  · rw [Program.walkAll_rest_of_none hb hn]
    exact .inl ⟨rfl, step_of_none hn⟩
  · obtain ⟨action, ha, hw⟩ := Program.walkAll_rest_of_some hb hn
    rw [hw, Task.walkAll_zero]
    exact .inr ⟨rfl, _, _, _, _, step_of_some hn ha⟩

/-- Every interruption of a run that ends is a beginning of it. -/
theorem walk_of_run {p : Program} {passes n : Nat} {r e : Recorded σ}
    (run : p.run passes r = some (n, e)) (k : Nat) :
    (p.walk k r).visited.length = min k n ∧ (p.walk k r).state.events <+: e.events ∧
      (n < k → (p.walk k r).state = e) := by
  have whole := p.walk_of_run run (Nat.lt_add_one n)
  have spent := p.visited_add_left (n + 1) r
  rcases Nat.lt_or_ge n k with hk | hk
  · obtain ⟨left, state⟩ := p.walk_of_run run hk
    have spent := p.visited_add_left k r
    exact ⟨by omega, state ▸ List.prefix_rfl, fun _ => state⟩
  · obtain ⟨visited, events⟩ :=
      p.walkAll_rest_take (show k ≤ n + 1 by omega) (Nat.zero_le _) r
    rw [p.walkAll_rest_zero, p.walkAll_rest_zero] at visited events
    rw [whole.2] at events
    refine ⟨?_, events, fun hn => absurd hn (by omega)⟩
    rw [visited, List.length_take]
    omega

/-- **A full run and a stepwise run are one execution.** Steps attempt, read and leave what the full
run does up to as many attempts. If the run ends after `n` attempts, then `n` steps are delivered,
after which there is none; if it does not end, there always is one more. -/
theorem stepN_eq_run (p : Program) (s : σ) :
    (∀ k, ∃ r, (ofProgram p).stepN k (Recorded.fresh s) =
      .ok ((p.walk k (Recorded.fresh s)).visited.length, r, (p.walk k (Recorded.fresh s)).state)) ∧
    (∀ passes n t, p.run passes s = some (n, t) →
      ∃ e : Recorded σ, e.state = t ∧ p.run passes (Recorded.fresh s) = some (n, e) ∧
        (Event.attempts e.events).length = n ∧
        ∀ k, ∃ r u, (ofProgram p).stepN k (Recorded.fresh s) = .ok (min k n, r, u) ∧
          u.events <+: e.events ∧
          Event.attempts u.events = (Event.attempts e.events).take (min k n) ∧
          (n < k → u = e) ∧ (k = n → r.step u = .ok (.done, r, e))) ∧
    ((∀ passes, p.run passes s = none) →
      ∀ k, ∃ r u, (ofProgram p).stepN k (Recorded.fresh s) = .ok (k, r, u) ∧
        ∃ index attempt r' u', r.step u = .ok (.executed index attempt, r', u')) := by
  have erased (passes : Nat) : p.run passes s =
      (p.run passes (Recorded.fresh s)).map (Prod.map id Recorded.state) :=
    p.run_map Recorded.faithful_state passes (Recorded.fresh s)
  refine ⟨fun k => ⟨_, stepN_eq_walk p k _⟩, ?_, ?_⟩
  · intro passes n t run
    rw [erased, Option.map_eq_some_iff] at run
    obtain ⟨⟨n, e⟩, run, heq⟩ := run
    simp only [Prod.map_apply, id_eq, Prod.mk.injEq] at heq
    obtain ⟨rfl, rfl⟩ := heq
    have whole := p.walk_of_run run (Nat.lt_add_one _)
    have attempts := p.length_attempts_walk (n + 1) s
    rw [whole.2, (walk_of_run run (n + 1)).1] at attempts
    refine ⟨e, rfl, run, by omega, ?_⟩
    intro k
    obtain ⟨visited, events, state⟩ := walk_of_run run k
    have used := p.visited_add_left k (Recorded.fresh s)
    have delivered := p.length_attempts_walk k s
    rw [visited] at delivered
    refine ⟨_, _, by rw [stepN_eq_walk, visited], events, ?_, state, ?_⟩
    · rw [← delivered]
      exact List.prefix_iff_eq_take.mp (Event.attempts_prefix events)
    · rintro rfl
      rcases step_after_stepN (show (p.walk k (Recorded.fresh s)).left = 0 by omega) with
        ⟨-, done⟩ | ⟨left, -⟩
      · rw [done, whole.2]
      · omega
  · intro endless k
    have endless (passes : Nat) : p.run passes (Recorded.fresh s) = none := by
      simpa [erased] using endless passes
    have used := Program.left_eq_zero_of_not_run endless
    have spent := p.visited_add_left k (Recorded.fresh s)
    have none_left := used k
    have visited : (p.walk k (Recorded.fresh s)).visited.length = k := by omega
    refine ⟨_, _, by rw [stepN_eq_walk, visited], ?_⟩
    rcases step_after_stepN (used k) with ⟨left, -⟩ | ⟨-, executed⟩
    · have := used (k + 1)
      omega
    · exact executed

/-- Two passes, then a reading that ends the loop; every action is refused. -/
theorem stepN_eq_run_scripted :
    (Program.loop (.sensor .wall) (.act .move)).run 3
        ({ wall := ⟨[true, true, false]⟩, refuses := [.move] } : ScriptedWorld) =
      some (2, { wall := ⟨[false]⟩, refuses := [.move] }) ∧
    ∀ k, ∃ r u, (ofProgram (.loop (.sensor .wall) (.act .move))).stepN k (Recorded.fresh
      ({ wall := ⟨[true, true, false]⟩, refuses := [.move] } : ScriptedWorld)) =
        .ok (min k 2, r, u) := by
  have run : (Program.loop (.sensor .wall) (.act .move)).run 3
      ({ wall := ⟨[true, true, false]⟩, refuses := [.move] } : ScriptedWorld) =
        some (2, { wall := ⟨[false]⟩, refuses := [.move] }) := rfl
  obtain ⟨e, -, -, -, steps⟩ := (stepN_eq_run _ _).2.1 3 2 _ run
  refine ⟨run, ?_⟩
  intro k
  obtain ⟨r, u, delivered, -⟩ := steps k
  exact ⟨r, u, delivered⟩

end Runner

end RobotControl
