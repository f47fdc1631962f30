import RobotControl.Proofs.Execution.Recording
import RobotControl.Proofs.Execution.Residual
import RobotControl.World.Scripted

/-!
Resuming from a cursor.

Whatever happened to the world since the last step, looking for the next one means running the rest
of the program in the world as it is now, up to the first attempt.

* `Task.exists_runAll_iff`: walks over tasks and full runs of their programs end alike.
* `Program.walkAll_rest_add`: an interrupted walk goes on from its last leaf as if nothing happened.
* `Program.walkAll_rest_events`: the log of a walk holds one attempt for each visited leaf.
* `Program.walkAll_rest_take`: a walk with less budget is the beginning of one with more.
* `Program.next_eq_head_residual`: the answer of `Program.next` is the first leaf that the rest of
  the program attempts, and its readings are those made before that attempt.
-/

namespace RobotControl

variable {σ : Type} [World σ]

namespace Task

theorem walkAll_zero (ts : List Task) (s : σ) : walkAll ts 0 s = ⟨[], 0, s⟩ := by
  induction ts with
  | nil => rfl
  | cons t ts ih => simp [walkAll, walk, Program.walk_zero, Walk.andThen, Walk.shift, ih]

/-- The numbers of the whole matter neither for the budget nor for the world. -/
theorem walkAll_eq_walkIn (ts : List Task) (budget : Nat) (s : σ) :
    (walkAll ts budget s).left = (Program.walkIn (ts.map Task.program) budget s).left ∧
      (walkAll ts budget s).state = (Program.walkIn (ts.map Task.program) budget s).state := by
  induction ts generalizing budget s with
  | nil => exact ⟨rfl, rfl⟩
  | cons t ts ih => exact ih (t.program.walk budget s).left (t.program.walk budget s).state

/-- A full run of the programs of some tasks is a walk over the tasks that is not interrupted. -/
theorem exists_runAll_iff {ts : List Task} {n : Nat} {s t : σ} :
    (∃ passes, Program.runAll passes (ts.map Task.program) s = some (n, t)) ↔
      (walkAll ts (n + 1) s).left = 1 ∧ (walkAll ts (n + 1) s).state = t := by
  obtain ⟨left, state⟩ := walkAll_eq_walkIn ts (n + 1) s
  rw [left, state]
  constructor
  · rintro ⟨passes, run⟩
    obtain ⟨left, state⟩ := Program.walkIn_of_runAll _ run (Nat.lt_add_one n)
    exact ⟨by omega, state⟩
  · rintro ⟨left, rfl⟩
    have run := Program.runAll_of_walkIn (ts.map Task.program) (Nat.le_refl (n + 1))
      (show 0 < (Program.walkIn (ts.map Task.program) (n + 1) s).left by omega)
    exact ⟨n + 1, by simpa [left] using run⟩

end Task

namespace Program

/-- **An interrupted walk can be resumed from the leaf it visited last**, and comes to the same as a
walk that was not interrupted. -/
theorem walkAll_rest_add (p : Program) {n : Nat} (m : Nat) {last : Nat} (h : last ≤ p.stepCount)
    {s : σ} (used : (Task.walkAll (p.rest last) n s).left = 0) :
    ∃ cursor, (Task.walkAll (p.rest last) n s).visited.getLastD last = cursor ∧
      cursor ≤ p.stepCount ∧
      Task.walkAll (p.rest last) (n + m) s =
        (Task.walkAll (p.rest last) n s).andThen
          fun _ => Task.walkAll (p.rest cursor) m := by
  induction n generalizing last s with
  | zero =>
      rw [Nat.zero_add, Task.walkAll_zero]
      exact ⟨last, rfl, h, rfl⟩
  | succ n ih =>
      rw [Nat.succ_add]
      rcases hn : p.next last s with ⟨_ | step, t⟩
      · rw [walkAll_rest_of_none h hn] at used
        contradiction
      · obtain ⟨action, ha, hw⟩ := walkAll_rest_of_some h hn
        rw [hw, Walk.visit_left] at used
        obtain ⟨cursor, hc, hb, resumed⟩ := ih (bounds_of_leaf? ha).2 used
        refine ⟨cursor, ?_, hb, ?_⟩
        · rw [hw, Walk.visit_visited, List.getLastD_cons, hc]
        · rw [hw, hw, resumed]
          rfl

/-- **A walk logs one attempt for each leaf it visits**, with the action of that leaf. -/
theorem walkAll_rest_events (p : Program) (budget : Nat) {last : Nat} (h : last ≤ p.stepCount)
    (r : Recorded σ) : ∃ events : List Event,
      (Task.walkAll (p.rest last) budget r).state.events = r.events ++ events ∧
        (Event.attempts events).map (fun attempt => some attempt.action) =
          (Task.walkAll (p.rest last) budget r).visited.map p.leaf? := by
  induction budget generalizing last r with
  | zero => exact ⟨[], by simp [Task.walkAll_zero], by simp [Task.walkAll_zero, Event.attempts]⟩
  | succ budget ih =>
      obtain ⟨readings, quiet, hr⟩ := p.next_readings last r
      rcases hn : p.next last r with ⟨_ | step, t⟩
      · rw [hn] at hr
        rw [walkAll_rest_of_none h hn]
        exact ⟨readings, hr, by simp [Event.attempts_eq_nil quiet]⟩
      · rw [hn] at hr
        obtain ⟨action, ha, hw⟩ := walkAll_rest_of_some h hn
        obtain ⟨later, hl, hv⟩ := ih (bounds_of_leaf? ha).2 (perform action t).2
        rw [hw]
        refine ⟨readings ++ .attempted (perform action t).1 :: later, ?_, ?_⟩
        · rw [Walk.visit_state, hl, perform_events, hr]
          simp
        · rw [Event.attempts_append, Event.attempts_eq_nil quiet, Walk.visit_visited,
            List.map_cons, ha, ← hv]
          rfl

/-- The log of a walk from the beginning holds as many attempts as the walk visited leaves. -/
theorem length_attempts_walk (p : Program) (budget : Nat) (s : σ) :
    (Event.attempts (p.walk budget (Recorded.fresh s)).state.events).length =
      (p.walk budget (Recorded.fresh s)).visited.length := by
  obtain ⟨events, he, hv⟩ := p.walkAll_rest_events budget (Nat.zero_le _) (Recorded.fresh s)
  rw [p.walkAll_rest_zero] at he hv
  rw [he, Recorded.events_fresh, List.nil_append]
  simpa using congrArg List.length hv

/-- A run can be recorded, and its log holds as many attempts as it answers. -/
theorem exists_recorded_of_run {p : Program} {passes n : Nat} {s t : σ}
    (run : p.run passes s = some (n, t)) :
    ∃ e : Recorded σ, e.state = t ∧ p.run passes (Recorded.fresh s) = some (n, e) ∧
      (Event.attempts e.events).length = n := by
  have erased := p.run_map Recorded.faithful_state passes (Recorded.fresh s)
  change p.run passes s = _ at erased
  rw [run, eq_comm, Option.map_eq_some_iff] at erased
  obtain ⟨⟨count, e⟩, recorded, heq⟩ := erased
  simp only [Prod.map_apply, id_eq, Prod.mk.injEq] at heq
  obtain ⟨rfl, rfl⟩ := heq
  obtain ⟨left, state⟩ := p.walk_of_run recorded (Nat.lt_add_one count)
  have spent := p.visited_add_left (count + 1) (Recorded.fresh s)
  have attempts := p.length_attempts_walk (count + 1) s
  rw [state] at attempts
  exact ⟨e, rfl, recorded, by omega⟩

/-- A walk with less budget is the beginning of one with more. -/
theorem walkAll_rest_take (p : Program) {less more : Nat} (hm : less ≤ more) {last : Nat}
    (h : last ≤ p.stepCount) (r : Recorded σ) :
    (Task.walkAll (p.rest last) less r).visited =
        (Task.walkAll (p.rest last) more r).visited.take less ∧
      (Task.walkAll (p.rest last) less r).state.events <+:
        (Task.walkAll (p.rest last) more r).state.events := by
  induction less generalizing more last r with
  | zero =>
      obtain ⟨events, he, -⟩ := p.walkAll_rest_events more h r
      rw [Task.walkAll_zero, he]
      exact ⟨rfl, List.prefix_append _ _⟩
  | succ less ih =>
      obtain ⟨more, rfl⟩ : ∃ m, more = m + 1 := ⟨more - 1, by omega⟩
      rcases hn : p.next last r with ⟨_ | step, t⟩
      · rw [walkAll_rest_of_none h hn, walkAll_rest_of_none h hn]
        exact ⟨rfl, List.prefix_rfl⟩
      · obtain ⟨action, ha, hw⟩ := walkAll_rest_of_some h hn
        obtain ⟨visited, events⟩ :=
          ih (Nat.le_of_succ_le_succ hm) (bounds_of_leaf? ha).2 (perform action t).2
        rw [hw, hw]
        exact ⟨by simp [visited], events⟩

/-- **Resuming means running the rest of the program in the world as it is now.** From a leaf with
the number `last` and in any world, `Program.next` answers the first leaf that a run of the residual
attempts, in the numbers of the whole program, and it reads exactly what that run reads before the
attempt. It answers none exactly when the run ends without an attempt. -/
theorem next_eq_head_residual (p : Program) {last : Nat} (first : 1 ≤ last)
    (within : last ≤ p.stepCount) (s : σ) :
    (∀ budget, 0 < budget →
      (Task.walkAll (p.residual last) budget (Recorded.fresh s)).visited.head? =
          (p.next last (Recorded.fresh s)).1 ∧
        (Task.walkAll (p.residual last) budget (Recorded.fresh s)).state.events.takeWhile
          Event.isReading = (p.next last (Recorded.fresh s)).2.events) ∧
      ((p.next last (Recorded.fresh s)).1 = none ↔
        ∃ passes t, runAll passes ((p.residual last).map Task.program) (Recorded.fresh s) =
          some (0, t)) := by
  obtain ⟨readings, quiet, hr⟩ := p.next_readings last (Recorded.fresh s)
  rw [Recorded.events_fresh, List.nil_append] at hr
  have pass (events : List Event) : (readings ++ events).takeWhile Event.isReading =
      readings ++ events.takeWhile Event.isReading := List.takeWhile_append_of_pos quiet
  rw [← p.rest_of_pos first]
  rcases hn : p.next last (Recorded.fresh s) with ⟨_ | step, t⟩
  · rw [hn] at hr
    refine ⟨?_, iff_of_true rfl ?_⟩
    · intro budget hb
      obtain ⟨budget, rfl⟩ : ∃ b, budget = b + 1 := ⟨budget - 1, by omega⟩
      rw [walkAll_rest_of_none within hn]
      exact ⟨rfl, by simpa [hr] using pass []⟩
    · have ends := walkAll_rest_of_none within hn 0
      obtain ⟨passes, run⟩ := Task.exists_runAll_iff.mpr ⟨by rw [ends], rfl⟩
      exact ⟨passes, _, run⟩
  · rw [hn] at hr
    obtain ⟨action, ha, hw⟩ := walkAll_rest_of_some within hn
    refine ⟨?_, iff_of_false (by simp) ?_⟩
    · intro budget hb
      obtain ⟨budget, rfl⟩ : ∃ b, budget = b + 1 := ⟨budget - 1, by omega⟩
      obtain ⟨later, hl, -⟩ :=
        p.walkAll_rest_events budget (bounds_of_leaf? ha).2 (perform action t).2
      rw [hw, Walk.visit_visited, Walk.visit_state, hl, perform_events, hr, List.append_assoc, pass]
      exact ⟨rfl, by simp [Event.isReading]⟩
    · rintro ⟨passes, u, run⟩
      obtain ⟨left, -⟩ := Task.exists_runAll_iff.mp ⟨passes, run⟩
      rw [hw, Walk.visit_left, Task.walkAll_zero] at left
      contradiction

/-- The inner loop and the body around it are over at once, and the outer loop begins again. -/
theorem next_eq_head_residual_nested :
    let patrol : Program :=
      .loop (.sensor .wall) (.seq [.act .move, .loop (.sensor .atItem) (.act .shoot)])
    let world : ScriptedWorld := { wall := ⟨[true]⟩, atItem := ⟨[false]⟩, refuses := [.move] }
    1 ≤ 2 ∧ 2 ≤ patrol.stepCount ∧
      (Task.walkAll (patrol.residual 2) 1 (Recorded.fresh world)).visited.head? = some 1 := by
  intro patrol world
  have resumed := next_eq_head_residual patrol (show 1 ≤ 2 by decide) (by decide) world
  exact ⟨by decide, by decide, (resumed.1 1 (by decide)).1⟩

end Program

end RobotControl
