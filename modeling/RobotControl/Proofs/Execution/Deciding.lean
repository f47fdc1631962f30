import Mathlib.Data.Option.Basic
import Mathlib.Data.Prod.Basic
import RobotControl.Proofs.Execution.Asking
import RobotControl.Proofs.Execution.Operating

/-!
What decides the way of an execution.

The tests of conditions are the only thing that an execution learns from its world. Outcomes of
attempts are passed on and never looked at, so a refused action is not tried again, stops nothing and
is followed by what follows it where it is applied.

* `Program.asked`: the tests that an interrupted run makes, in order.
* `Program.walk_answered`: the readings in the log of a recorded world answer them one for one.
  `Program.run_answered` and `Runner.stepN_answered` say it of runs that end and of steps.
* `Program.walk_decided`: where they come out the same, the same leaves are visited.
* `Program.rest_after_step`: after a step the cursor is on its leaf and the rest of the program after
  that leaf is still to be run, whatever the outcome was.
* `Program.alike_of_sameResults`: full runs and stepwise runs in worlds where the tests come out the
  same attempt the same.
-/

namespace RobotControl

open Recorded (Answered)

/-! ### Tests that an interrupted run makes -/

/-- The tests that a loop makes. -/
def askedWhile {σ : Type} (asked : σ → List Test) (test : σ → Bool × σ) (pass : Nat → σ → Walk σ)
    (within : Nat → σ → List Test) (budget : Nat) (s : σ) : List Test :=
  if budget = 0 then []
  else asked s ++ match test s with
    | (false, _) => []
    | (true, s) =>
      let w := pass budget s
      within budget s ++
        if w.left < budget then askedWhile asked test pass within w.left w.state else []
termination_by budget

section AskedWhile

variable {σ : Type} {asked : σ → List Test} {test : σ → Bool × σ} {pass : Nat → σ → Walk σ}
  {within : Nat → σ → List Test} {budget : Nat} {s t : σ}

theorem askedWhile_zero : askedWhile asked test pass within 0 s = [] := by
  simp [askedWhile]

theorem askedWhile_of_false (h : test s = (false, t)) (hb : 0 < budget) :
    askedWhile asked test pass within budget s = asked s := by
  rw [askedWhile, if_neg (Nat.ne_of_gt hb), h, List.append_nil]

theorem askedWhile_of_lt (h : test s = (true, t)) (hp : (pass budget t).left < budget) :
    askedWhile asked test pass within budget s = asked s ++ (within budget t ++
      askedWhile asked test pass within (pass budget t).left (pass budget t).state) := by
  rw [askedWhile, if_neg (by omega), h]
  simp only [hp, if_true]

theorem askedWhile_of_not_lt (h : test s = (true, t)) (hb : 0 < budget)
    (hp : ¬ (pass budget t).left < budget) :
    askedWhile asked test pass within budget s = asked s ++ within budget t := by
  rw [askedWhile, if_neg (Nat.ne_of_gt hb), h]
  simp only [hp, if_false, List.append_nil]

end AskedWhile

section Asked

variable {σ : Type} [World σ]

mutual

/-- The tests that a run makes which is broken off right after `budget` attempts. -/
def Program.asked : Program → (budget : Nat) → σ → List Test
  | .act _, _, _ => []
  | .seq body, budget, s => Program.askedIn body budget s
  | .branch test thenPart elsePart, budget, s =>
    if budget = 0 then []
    else test.asked s ++ match test.evaluate s with
      | (true, s) => thenPart.asked budget s
      | (false, s) => elsePart.asked budget s
  | .loop test body, budget, s => askedWhile test.asked test.evaluate body.walk body.asked budget s

def Program.askedIn : List Program → (budget : Nat) → σ → List Test
  | [], _, _ => []
  | p :: ps, budget, s =>
    p.asked budget s ++ Program.askedIn ps (p.walk budget s).left (p.walk budget s).state

end

end Asked

mutual

/-- The tests that the conditions of a program are written with, from left to right. -/
def Program.questions : Program → List Question
  | .act _ => []
  | .seq body => Program.questionsOf body
  | .branch test thenPart elsePart => test.questions ++ thenPart.questions ++ elsePart.questions
  | .loop test body => test.questions ++ body.questions

def Program.questionsOf : List Program → List Question
  | [] => []
  | p :: ps => p.questions ++ Program.questionsOf ps

end

/-! ### The readings that answer them -/

section Readings

variable {σ : Type} [World σ]

omit [World σ] in
theorem askedWhile_answered {asked : Recorded σ → List Test}
    {test : Recorded σ → Bool × Recorded σ} {pass : Nat → Recorded σ → Walk (Recorded σ)}
    {within : Nat → Recorded σ → List Test} (htest : ∀ r, Answered (asked r) r (test r).2)
    (hpass : ∀ budget r, Answered (within budget r) r (pass budget r).state) (budget : Nat)
    (r : Recorded σ) :
    Answered (askedWhile asked test pass within budget r) r
      (Walk.repeatWhile test pass budget r).state := by
  induction budget using Nat.strongRecOn generalizing r with
  | ind budget ih =>
      rcases Nat.eq_zero_or_pos budget with rfl | pos
      · rw [askedWhile_zero, Walk.repeatWhile_zero]
        exact .refl r
      · have first := htest r
        rcases ht : test r with ⟨_ | _, t⟩
        · rw [ht] at first
          rwa [askedWhile_of_false ht pos, Walk.repeatWhile_of_false ht pass pos]
        · rw [ht] at first
          by_cases hp : (pass budget t).left < budget
          · rw [askedWhile_of_lt ht hp, Walk.repeatWhile_of_lt ht hp]
            exact first.trans ((hpass budget t).trans (ih _ hp _))
          · rw [askedWhile_of_not_lt ht pos hp, Walk.repeatWhile_of_not_lt ht pos hp]
            exact first.trans (hpass budget t)

mutual

/-- **The readings in the log answer the tests of an interrupted run one for one.** -/
theorem Program.walk_answered : ∀ (p : Program) (budget : Nat) (r : Recorded σ),
    Answered (p.asked budget r) r (p.walk budget r).state
  | .act _, 0, r => .refl r
  | .act action, _ + 1, r => .perform action r
  | .seq body, budget, r => Program.walkIn_answered body budget r
  | .branch test thenPart elsePart, budget, r => by
      rw [Program.asked, Program.walk]
      by_cases hb : budget = 0
      · rw [if_pos hb, if_pos hb]
        exact .refl r
      · rw [if_neg hb, if_neg hb]
        have first := test.evaluate_answered r
        rcases ht : test.evaluate r with ⟨_ | _, t⟩
        · rw [ht] at first
          exact first.trans (elsePart.walk_answered budget t)
        · rw [ht] at first
          exact first.trans (thenPart.walk_answered budget t)
  | .loop test body, budget, r =>
      askedWhile_answered test.evaluate_answered body.walk_answered budget r

theorem Program.walkIn_answered : ∀ (ps : List Program) (budget : Nat) (r : Recorded σ),
    Answered (Program.askedIn ps budget r) r (Program.walkIn ps budget r).state
  | [], _, r => .refl r
  | p :: ps, budget, r => (p.walk_answered budget r).trans (Program.walkIn_answered ps _ _)

end

/-- A full run that ends after `n` attempts makes the tests of one that may attempt one action more. -/
theorem Program.run_answered {p : Program} {passes n : Nat} {r e : Recorded σ}
    (run : p.run passes r = some (n, e)) : Answered (p.asked (n + 1) r) r e := by
  obtain ⟨-, state⟩ := p.walk_of_run run (Nat.lt_add_one n)
  rw [← state]
  exact p.walk_answered (n + 1) r

/-- Steps from the beginning make the tests of a full run that is broken off after as many attempts. -/
theorem Runner.stepN_answered {p : Program} {n count : Nat} {r' : Runner} {r t : Recorded σ}
    (h : (ofProgram p).stepN n r = .ok (count, r', t)) : Answered (p.asked n r) r t := by
  rw [stepN_eq_walk] at h
  cases h
  exact p.walk_answered n r

end Readings

/-! ### Tests decide -/

/-- Two walks visited the same leaves and have as many attempts left. -/
def Walk.Alike {σ τ : Type} (w : Walk σ) (v : Walk τ) : Prop :=
  w.visited = v.visited ∧ w.left = v.left

theorem Walk.Alike.symm {σ τ : Type} {w : Walk σ} {v : Walk τ} (h : w.Alike v) : v.Alike w :=
  ⟨h.1.symm, h.2.symm⟩

theorem Walk.Alike.shift {σ τ : Type} {w : Walk σ} {v : Walk τ} (h : w.Alike v) (below : Nat) :
    (w.shift below).Alike (v.shift below) :=
  ⟨congrArg (List.map (below + ·)) h.1, h.2⟩

theorem Walk.Alike.andThen {σ τ : Type} {w : Walk σ} {v : Walk τ} {next : Nat → σ → Walk σ}
    {next' : Nat → τ → Walk τ} (h : w.Alike v)
    (hnext : (next w.left w.state).Alike (next' v.left v.state)) :
    (w.andThen next).Alike (v.andThen next') :=
  ⟨congrArg₂ (· ++ ·) h.1 hnext.1, hnext.2⟩

theorem repeatWhile_decided {σ τ : Type} {asked : σ → List Test} {asked' : τ → List Test}
    {test : σ → Bool × σ} {test' : τ → Bool × τ} {pass : Nat → σ → Walk σ}
    {pass' : Nat → τ → Walk τ} {within : Nat → σ → List Test} {within' : Nat → τ → List Test}
    (htest : ∀ s t, DecidedBy (asked s) (asked' t) ((test s).1 = (test' t).1))
    (hpass : ∀ budget s t,
      DecidedBy (within budget s) (within' budget t) ((pass budget s).Alike (pass' budget t)))
    (budget : Nat) (s : σ) (t : τ) :
    DecidedBy (askedWhile asked test pass within budget s)
      (askedWhile asked' test' pass' within' budget t)
      ((Walk.repeatWhile test pass budget s).Alike (Walk.repeatWhile test' pass' budget t)) := by
  induction budget using Nat.strongRecOn generalizing s t with
  | ind budget ih =>
      rcases Nat.eq_zero_or_pos budget with rfl | pos
      · rw [askedWhile_zero, askedWhile_zero, Walk.repeatWhile_zero, Walk.repeatWhile_zero]
        exact .of_true ⟨rfl, rfl⟩
      · rw [askedWhile, askedWhile, if_neg (Nat.ne_of_gt pos), if_neg (Nat.ne_of_gt pos)]
        -- Both loops end here or both begin a pass.
        apply (htest s t).andThen
        rcases hs : test s with ⟨value, s'⟩
        rcases ht : test' t with ⟨_, t'⟩
        rintro rfl
        cases value with
        | false =>
            rw [Walk.repeatWhile_of_false hs pass pos, Walk.repeatWhile_of_false ht pass' pos]
            exact .of_true ⟨rfl, rfl⟩
        | true =>
            -- Both passes paid for an attempt, or neither did, and then they are the last.
            apply (hpass budget s' t').andThen
            intro alike
            by_cases hp : (pass budget s').left < budget
            · have hp' : (pass' budget t').left < budget := alike.2 ▸ hp
              rw [if_pos hp, if_pos hp', Walk.repeatWhile_of_lt hs hp,
                Walk.repeatWhile_of_lt ht hp', ← alike.2]
              exact (ih _ hp _ _).imp fun rest => alike.andThen (alike.2 ▸ rest)
            · have hp' : ¬ (pass' budget t').left < budget := alike.2 ▸ hp
              rw [if_neg hp, if_neg hp', Walk.repeatWhile_of_not_lt hs pos hp,
                Walk.repeatWhile_of_not_lt ht pos hp']
              exact .of_true alike

section TwoWorlds

variable {σ τ : Type} [World σ] [World τ]

mutual

/-- **Where the tests of an interrupted run come out the same, the same leaves are visited.** -/
theorem Program.walk_decided : ∀ (p : Program) (budget : Nat) (s : σ) (t : τ),
    DecidedBy (p.asked budget s) (p.asked budget t) ((p.walk budget s).Alike (p.walk budget t))
  | .act _, 0, _, _ => .of_true ⟨rfl, rfl⟩
  | .act _, _ + 1, _, _ => .of_true ⟨rfl, rfl⟩
  | .seq body, budget, s, t => Program.walkIn_decided body budget s t
  | .branch test thenPart elsePart, budget, s, t => by
      simp only [Program.asked, Program.walk]
      by_cases hb : budget = 0
      · simp only [hb, if_true]
        exact .of_true ⟨rfl, rfl⟩
      · simp only [hb, if_false]
        apply (test.evaluate_decided s t).andThen
        rcases test.evaluate s with ⟨value, s'⟩
        rcases test.evaluate t with ⟨_, t'⟩
        rintro rfl
        cases value with
        | false => exact (elsePart.walk_decided budget s' t').imp (·.shift _)
        | true => exact thenPart.walk_decided budget s' t'
  | .loop test body, budget, s, t =>
      repeatWhile_decided test.evaluate_decided body.walk_decided budget s t

theorem Program.walkIn_decided : ∀ (ps : List Program) (budget : Nat) (s : σ) (t : τ),
    DecidedBy (Program.askedIn ps budget s) (Program.askedIn ps budget t)
      ((Program.walkIn ps budget s).Alike (Program.walkIn ps budget t))
  | [], _, _, _ => .of_true ⟨rfl, rfl⟩
  | p :: ps, budget, s, t => by
      rw [askedIn, askedIn, walkIn, walkIn]
      apply (p.walk_decided budget s t).andThen
      intro alike
      rw [← alike.2]
      refine (Program.walkIn_decided ps _ _ _).imp fun rest => alike.andThen ?_
      rw [← alike.2]
      exact rest.shift _

end

end TwoWorlds

/-! ### Programs without tests -/

section Written

variable {σ : Type} [World σ]

theorem Condition.mem_questions_of_asked {c : Condition} {s : σ} {test : Test}
    (h : test ∈ c.asked s) : test.question ∈ c.questions :=
  (c.asked_sublist s).subset (List.mem_map_of_mem h)

omit [World σ] in
theorem mem_of_askedWhile {asked : σ → List Test} {test : σ → Bool × σ} {pass : Nat → σ → Walk σ}
    {within : Nat → σ → List Test} {P : Test → Prop} (htest : ∀ s, ∀ x ∈ asked s, P x)
    (hpass : ∀ budget s, ∀ x ∈ within budget s, P x) (budget : Nat) (s : σ) :
    ∀ x ∈ askedWhile asked test pass within budget s, P x := by
  induction budget using Nat.strongRecOn generalizing s with
  | ind budget ih =>
      intro x hx
      rcases Nat.eq_zero_or_pos budget with rfl | pos
      · rw [askedWhile_zero] at hx
        cases hx
      · rcases ht : test s with ⟨_ | _, t⟩
        · rw [askedWhile_of_false ht pos] at hx
          exact htest s x hx
        · by_cases hp : (pass budget t).left < budget
          · rw [askedWhile_of_lt ht hp, List.mem_append, List.mem_append] at hx
            rcases hx with hx | hx | hx
            · exact htest s x hx
            · exact hpass budget t x hx
            · exact ih _ hp _ x hx
          · rw [askedWhile_of_not_lt ht pos hp, List.mem_append] at hx
            rcases hx with hx | hx
            · exact htest s x hx
            · exact hpass budget t x hx

mutual

/-- A run makes only tests that its program is written with. -/
theorem Program.mem_questions_of_asked : ∀ (p : Program) (budget : Nat) (s : σ),
    ∀ x ∈ p.asked budget s, x.question ∈ p.questions
  | .act _, _, _, _, hx => by cases hx
  | .seq body, budget, s, x, hx => Program.mem_questionsOf_of_asked body budget s x hx
  | .branch test thenPart elsePart, budget, s, x, hx => by
      rw [asked] at hx
      by_cases hb : budget = 0
      · rw [if_pos hb] at hx
        cases hx
      · rw [if_neg hb, List.mem_append] at hx
        simp only [questions, List.mem_append]
        rcases hx with hx | hx
        · exact .inl (.inl (Condition.mem_questions_of_asked hx))
        · rcases ht : test.evaluate s with ⟨_ | _, t⟩
          · rw [ht] at hx
            exact .inr (elsePart.mem_questions_of_asked budget t x hx)
          · rw [ht] at hx
            exact .inl (.inr (thenPart.mem_questions_of_asked budget t x hx))
  | .loop test body, budget, s, x, hx => by
      rw [questions, List.mem_append]
      apply mem_of_askedWhile (P := fun x => x.question ∈ test.questions ∨
        x.question ∈ body.questions) ?_ ?_ budget s x hx
      · intro t x hx
        exact .inl (Condition.mem_questions_of_asked hx)
      · intro budget t x hx
        exact .inr (body.mem_questions_of_asked budget t x hx)

theorem Program.mem_questionsOf_of_asked : ∀ (ps : List Program) (budget : Nat) (s : σ),
    ∀ x ∈ Program.askedIn ps budget s, x.question ∈ Program.questionsOf ps
  | [], _, _, _, hx => by cases hx
  | p :: ps, budget, s, x, hx => by
      rw [askedIn, List.mem_append] at hx
      rw [questionsOf, List.mem_append]
      rcases hx with hx | hx
      · exact .inl (p.mem_questions_of_asked budget s x hx)
      · exact .inr (Program.mem_questionsOf_of_asked ps _ _ x hx)

end

/-- A program without tests makes none. -/
theorem Program.asked_eq_nil {p : Program} (h : p.questions = []) (budget : Nat) (s : σ) :
    p.asked budget s = [] := by
  rw [List.eq_nil_iff_forall_not_mem]
  intro x hx
  have written := p.mem_questions_of_asked budget s x hx
  rw [h] at written
  cases written

end Written

/-! ### Steps -/

namespace Runner

variable {σ : Type} [World σ]

/-- **After a step the cursor is on the leaf that was attempted, and the rest of the program after it
is still to be run.** The outcome of the attempt is not asked for. -/
theorem rest_after_step {p : Program} {last index : Nat} {attempt : Attempt} {r : Runner} {s t : σ}
    (h : last ≤ p.stepCount) (hs : step ⟨some p, last⟩ s = .ok (.executed index attempt, r, t)) :
    r = ⟨some p, index⟩ ∧ index ≤ p.stepCount ∧ p.leaf? index = some attempt.action ∧
      ∀ n, Task.walkAll (p.rest last) (n + 1) s =
        (Task.walkAll (p.rest index) n t).visit index := by
  rcases step_cases ⟨some p, last⟩ s with
    ⟨none, -⟩ | ⟨q, hq, ⟨u, -, done⟩ | ⟨step, u, action, hn, ha, executed⟩⟩
  · cases none
  · rw [done] at hs
    cases hs
  · cases hq
    rw [executed] at hs
    cases hs
    obtain ⟨action', ha', hw⟩ := Program.walkAll_rest_of_some h hn
    obtain rfl : action = action' := Option.some.inj (ha.symm.trans ha')
    exact ⟨rfl, (Program.bounds_of_leaf? ha).2, ha, hw⟩

/-- Steps deliver the leaves of a walk over the rest of the program, with their actions. -/
theorem deliveries_eq_walk (p : Program) (n : Nat) {last : Nat} (h : last ≤ p.stepCount) (s : σ) :
    (deliveries n ⟨some p, last⟩ s).map (fun d => (d.1, some d.2.action)) =
      (Task.walkAll (p.rest last) n s).visited.map fun leaf => (leaf, p.leaf? leaf) := by
  induction n generalizing last s with
  | zero =>
      rw [Task.walkAll_zero]
      rfl
  | succ n ih =>
      rcases step_cases ⟨some p, last⟩ s with
        ⟨none, -⟩ | ⟨q, hq, ⟨u, hn, done⟩ | ⟨step, u, action, hn, ha, executed⟩⟩
      · cases none
      · cases hq
        rw [Program.walkAll_rest_of_none h hn, deliveries, done]
        rfl
      · cases hq
        obtain ⟨-, within, -, rest⟩ := rest_after_step h executed
        rw [rest, deliveries, executed, Walk.visit_visited, List.map_cons, List.map_cons, ha,
          ih within]
        rfl

end Runner

/-! ### Executions -/

/-- The actions that were attempted, in order. -/
def Recorded.actions {σ : Type} (r : Recorded σ) : List Action :=
  (Event.attempts r.events).map Attempt.action

/-- Executions of a program go the same way in two worlds: full runs that are broken off or that end,
and steps from the beginning. -/
structure Program.Alike {σ τ : Type} [World σ] [World τ] (p : Program) (s : σ) (t : τ) : Prop where
  interrupted : ∀ n,
    (p.walk n (Recorded.fresh s)).state.actions = (p.walk n (Recorded.fresh t)).state.actions
  run : ∀ n actions,
    (∃ passes e, p.run passes (Recorded.fresh s) = some (n, e) ∧ e.actions = actions) ↔
      ∃ passes e, p.run passes (Recorded.fresh t) = some (n, e) ∧ e.actions = actions
  steps : ∀ n,
    ((Runner.ofProgram p).deliveries n (Recorded.fresh s)).map (Prod.map id Attempt.action) =
      ((Runner.ofProgram p).deliveries n (Recorded.fresh t)).map (Prod.map id Attempt.action)

namespace Program

section OneWorld

variable {σ : Type} [World σ]

/-- The actions in the log are those of the leaves that were visited. -/
theorem map_actions_walk (p : Program) (n : Nat) (s : σ) :
    (p.walk n (Recorded.fresh s)).state.actions.map some =
      (p.walk n (Recorded.fresh s)).visited.map p.leaf? := by
  obtain ⟨events, log, leaves⟩ := p.walkAll_rest_events n (Nat.zero_le _) (Recorded.fresh s)
  rw [p.walkAll_rest_zero, Recorded.events_fresh, List.nil_append] at log
  rw [p.walkAll_rest_zero] at leaves
  rw [Recorded.actions, log, List.map_map, ← leaves]
  rfl

theorem map_deliveries (p : Program) (n : Nat) (s : σ) :
    (((Runner.ofProgram p).deliveries n s).map (Prod.map id Attempt.action)).map
        (Prod.map id some) =
      (p.walk n s).visited.map fun leaf => (leaf, p.leaf? leaf) := by
  rw [← p.walkAll_rest_zero, ← Runner.deliveries_eq_walk p n (Nat.zero_le _) s, List.map_map]
  rfl

end OneWorld

variable {σ τ : Type} [World σ] [World τ] {p : Program} {s : σ} {t : τ}

theorem actions_walk_of_alike {n : Nat}
    (h : (p.walk n (Recorded.fresh s)).Alike (p.walk n (Recorded.fresh t))) :
    (p.walk n (Recorded.fresh s)).state.actions = (p.walk n (Recorded.fresh t)).state.actions := by
  apply List.map_injective_iff.mpr (Option.some_injective Action)
  rw [map_actions_walk, map_actions_walk, h.1]

theorem exists_run_of_alike {passes n : Nat} {e : Recorded σ}
    (h : (p.walk (n + 1) (Recorded.fresh s)).Alike (p.walk (n + 1) (Recorded.fresh t)))
    (run : p.run passes (Recorded.fresh s) = some (n, e)) :
    ∃ passes e', p.run passes (Recorded.fresh t) = some (n, e') ∧ e'.actions = e.actions := by
  obtain ⟨left, rfl⟩ := exists_run_iff.mp ⟨passes, run⟩
  obtain ⟨passes', run'⟩ := exists_run_iff.mpr ⟨h.2.symm.trans left, rfl⟩
  exact ⟨passes', _, run', (actions_walk_of_alike h).symm⟩

/-- **Nothing but the tests decides the way of an execution.** In two worlds of any kinds in which
they come out the same, and so in all worlds if the program is written without tests, full runs and
stepwise runs attempt the same actions and answer the same numbers. Whatever a step's attempt came
to, the cursor is on its leaf afterwards, and what is run next is the rest of the program after it. -/
theorem alike_of_sameResults (p : Program) (s : σ) (t : τ)
    (same : p.questions = [] ∨
      ∀ n, SameResults (p.asked n (Recorded.fresh s)) (p.asked n (Recorded.fresh t))) :
    p.Alike s t ∧
      ∀ last index attempt r (u v : σ), last ≤ p.stepCount →
        Runner.step ⟨some p, last⟩ u = .ok (.executed index attempt, r, v) →
          r = ⟨some p, index⟩ ∧ index ≤ p.stepCount ∧ p.leaf? index = some attempt.action ∧
            ∀ n, Task.walkAll (p.rest last) (n + 1) u =
              (Task.walkAll (p.rest index) n v).visit index := by
  have alike (n : Nat) : (p.walk n (Recorded.fresh s)).Alike (p.walk n (Recorded.fresh t)) := by
    refine (p.walk_decided n _ _ ?_).2
    rcases same with written | same
    · rw [asked_eq_nil written, asked_eq_nil written]
      exact .refl []
    · exact same n
  refine ⟨⟨fun n => actions_walk_of_alike (alike n), ?_, ?_⟩, ?_⟩
  · intro n actions
    constructor
    · rintro ⟨passes, e, run, rfl⟩
      exact exists_run_of_alike (alike (n + 1)) run
    · rintro ⟨passes, e, run, rfl⟩
      exact exists_run_of_alike (alike (n + 1)).symm run
  · intro n
    apply List.map_injective_iff.mpr (Function.injective_id.prodMap (Option.some_injective Action))
    rw [map_deliveries, map_deliveries, (alike n).1]
  · intro last index attempt r u v h hs
    exact Runner.rest_after_step h hs

/-- A program with a test of each kind. -/
def siege : Program := .seq [
  .branch (.energyAtLeast 100.0) (.act .move) (.act .pickUpAndUse),
  .branch (.sensor .wall) (.act .shoot) (.act .turnClockwise)]

/-- A world where every action is too dear. -/
def exhausted : ScriptedWorld := { wall := ⟨[true]⟩, stored := 200.0, cost := 300.0 }

/-- A world where no action costs anything. -/
def generous : ScriptedWorld := { wall := ⟨[true, false]⟩, stored := 500.0 }

/-- Both worlds have enough energy for the test and see a wall after the first attempt, which one of
them refuses and the other one applies. -/
theorem alike_of_sameResults_siege :
    (∀ n, SameResults (siege.asked n (Recorded.fresh exhausted))
      (siege.asked n (Recorded.fresh generous))) ∧ siege.Alike exhausted generous := by
  have same (n : Nat) : SameResults (siege.asked n (Recorded.fresh exhausted))
      (siege.asked n (Recorded.fresh generous)) := by
    rcases n with _ | _ | n
    · exact .refl []
    · exact .refl [⟨.energyAtLeast 100.0, true⟩]
    · exact .refl [⟨.energyAtLeast 100.0, true⟩, ⟨.sensor .wall, true⟩]
  exact ⟨same, (alike_of_sameResults siege exhausted generous (.inr same)).1⟩

end Program

end RobotControl
