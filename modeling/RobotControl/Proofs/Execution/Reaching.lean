import RobotControl.Execution.Run
import RobotControl.Proofs.Execution.Addressing
import RobotControl.Proofs.Execution.Walk

/-!
Worlds that an execution comes to.

Whatever an execution does to a world, it does through the interface: it reads, and it attempts
actions. So what every reading and every attempt keeps, every execution keeps.

* `Condition.evaluate_reads`, `Program.next_reads`: evaluating a condition and looking for the next
  step only read.
* `Program.run_reaches`, `Program.walk_reaches`: a full run and an interrupted one only read and
  attempt.
* `Reaches.keeps`: what readings and attempts keep holds in every world that is reached.
-/

namespace RobotControl

section Interface

variable {σ : Type} [World σ]

/-- A world comes from another through readings. -/
inductive Reads (s : σ) : σ → Prop where
  | refl : Reads s s
  | sense {t : σ} (sensor : Sensor) : Reads s t → Reads s (World.sense sensor t).2
  | energy {t : σ} : Reads s t → Reads s (World.energy t).2

/-- A world comes from another through readings and attempts. -/
inductive Reaches (s : σ) : σ → Prop where
  | refl : Reaches s s
  | sense {t : σ} (sensor : Sensor) : Reaches s t → Reaches s (World.sense sensor t).2
  | energy {t : σ} : Reaches s t → Reaches s (World.energy t).2
  | attempt {t : σ} (action : Action) : Reaches s t → Reaches s (World.attempt action t).2

theorem Reads.trans {s t u : σ} (first : Reads s t) (second : Reads t u) : Reads s u := by
  induction second with
  | refl => exact first
  | sense sensor _ ih => exact .sense sensor ih
  | energy _ ih => exact .energy ih

theorem Reaches.trans {s t u : σ} (first : Reaches s t) (second : Reaches t u) : Reaches s u := by
  induction second with
  | refl => exact first
  | sense sensor _ ih => exact .sense sensor ih
  | energy _ ih => exact .energy ih
  | attempt action _ ih => exact .attempt action ih

theorem Reads.reaches {s t : σ} (h : Reads s t) : Reaches s t := by
  induction h with
  | refl => exact .refl
  | sense sensor _ ih => exact .sense sensor ih
  | energy _ ih => exact .energy ih

/-- Readings change nothing in a steadfast world. -/
theorem Reads.eq [Steadfast σ] {s t : σ} (h : Reads s t) : t = s := by
  induction h with
  | refl => rfl
  | sense sensor _ ih => rw [Steadfast.sense_state, ih]
  | energy _ ih => rw [Steadfast.energy_state, ih]

/-- **What readings and attempts keep holds in every world that is reached.** In a steadfast world
attempts alone decide. -/
theorem Reaches.keeps [Steadfast σ] {P : σ → Prop}
    (keep : ∀ (action : Action) (t : σ), P t → P (World.attempt action t).2) {s t : σ}
    (h : Reaches s t) (start : P s) : P t := by
  induction h with
  | refl => exact start
  | sense sensor _ ih => rwa [Steadfast.sense_state]
  | energy _ ih => rwa [Steadfast.energy_state]
  | attempt action _ ih => exact keep action _ ih

theorem perform_reaches (action : Action) (s : σ) : Reaches s (perform action s).2 :=
  .attempt action .refl

end Interface

/-! ### Readings -/

section Readings

variable {σ : Type} [World σ]

mutual

/-- Evaluating a condition only reads. -/
theorem Condition.evaluate_reads : ∀ (c : Condition) (s : σ), Reads s (c.evaluate s).2
  | .constant _, _ => .refl
  | .sensor which, _ => .sense which .refl
  | .energyAtLeast _, _ => .energy .refl
  | .and operands, s => Condition.evaluateAll_reads operands s
  | .or operands, s => Condition.evaluateAny_reads operands s
  | .not operand, s => operand.evaluate_reads s

theorem Condition.evaluateAll_reads : ∀ (cs : List Condition) (s : σ),
    Reads s (Condition.evaluateAll cs s).2
  | [], _ => .refl
  | c :: cs, s => by
      have first := c.evaluate_reads s
      rw [Condition.evaluateAll]
      rcases hc : c.evaluate s with ⟨_ | _, t⟩
      · simpa only [hc] using first
      · rw [hc] at first
        exact first.trans (Condition.evaluateAll_reads cs t)

theorem Condition.evaluateAny_reads : ∀ (cs : List Condition) (s : σ),
    Reads s (Condition.evaluateAny cs s).2
  | [], _ => .refl
  | c :: cs, s => by
      have first := c.evaluate_reads s
      rw [Condition.evaluateAny]
      rcases hc : c.evaluate s with ⟨_ | _, t⟩
      · rw [hc] at first
        exact first.trans (Condition.evaluateAny_reads cs t)
      · simpa only [hc] using first

end

mutual

/-- Looking for the next step only reads. -/
theorem Program.next_reads : ∀ (p : Program) (last : Nat) (s : σ), Reads s (p.next last s).2
  | .act _, _, _ => .refl
  | .seq body, last, s => Program.nextIn_reads body last s
  | .branch test thenPart elsePart, last, s => by
      rw [Program.next]
      by_cases h0 : last = 0
      · have first := test.evaluate_reads s
        rw [if_pos h0]
        rcases ht : test.evaluate s with ⟨_ | _, t⟩
        · rw [ht] at first
          exact first.trans (elsePart.next_reads 0 t)
        · rw [ht] at first
          exact first.trans (thenPart.next_reads 0 t)
      · rw [if_neg h0]
        split
        · exact thenPart.next_reads last s
        · exact elsePart.next_reads (last - thenPart.stepCount) s
  | .loop test body, last, s => by
      have again (t : σ) : Reads t ((Program.loop test body).next 0 t).2 := by
        have first := test.evaluate_reads t
        rw [Program.next, if_pos rfl]
        rcases ht : test.evaluate t with ⟨_ | _, u⟩
        · rwa [ht] at first
        · rw [ht] at first
          exact first.trans (body.next_reads 0 u)
      rcases Nat.eq_zero_or_pos last with rfl | pos
      · exact again s
      · have pass := body.next_reads last s
        rcases hb : body.next last s with ⟨_ | step, t⟩
        · rw [hb] at pass
          rw [Program.next_loop_of_none (Nat.ne_of_gt pos) hb]
          exact pass.trans (again t)
        · rw [hb] at pass
          rwa [Program.next_loop_of_some (Nat.ne_of_gt pos) hb]

theorem Program.nextIn_reads : ∀ (ps : List Program) (last : Nat) (s : σ),
    Reads s (Program.nextIn ps last s).2
  | [], _, _ => .refl
  | p :: ps, last, s => by
      rcases Nat.lt_or_ge p.stepCount last with hl | hl
      · rw [Program.nextIn_cons_of_lt hl]
        exact Program.nextIn_reads ps (last - p.stepCount) s
      · have first := p.next_reads last s
        rcases hp : p.next last s with ⟨_ | step, t⟩
        · rw [hp] at first
          rw [Program.nextIn_cons_of_none hl hp]
          exact first.trans (Program.nextIn_reads ps 0 t)
        · rw [hp] at first
          rwa [Program.nextIn_cons_of_some hl hp]

end

end Readings

/-! ### Runs -/

/-- A loop only does what its test and its pass do. -/
theorem Reaches.repeatWhile {σ : Type} [World σ] {test : σ → Bool × σ}
    {pass : Nat → σ → Walk σ} (htest : ∀ s, Reaches s (test s).2)
    (hpass : ∀ budget s, Reaches s (pass budget s).state) (budget : Nat) (s : σ) :
    Reaches s (Walk.repeatWhile test pass budget s).state := by
  induction budget using Nat.strongRecOn generalizing s with
  | ind budget ih =>
      rcases Nat.eq_zero_or_pos budget with rfl | pos
      · rw [Walk.repeatWhile_zero]
        exact .refl
      · have first := htest s
        rcases ht : test s with ⟨_ | _, t⟩
        · rw [ht] at first
          rwa [Walk.repeatWhile_of_false ht pass pos]
        · rw [ht] at first
          have once := first.trans (hpass budget t)
          by_cases hp : (pass budget t).left < budget
          · rw [Walk.repeatWhile_of_lt ht hp]
            exact once.trans (ih _ hp _)
          · rwa [Walk.repeatWhile_of_not_lt ht pos hp]

section Runs

variable {σ : Type} [World σ]

mutual

/-- **An interrupted run only reads and attempts.** -/
theorem Program.walk_reaches : ∀ (p : Program) (budget : Nat) (s : σ),
    Reaches s (p.walk budget s).state
  | .act _, 0, _ => .refl
  | .act action, _ + 1, s => perform_reaches action s
  | .seq body, budget, s => Program.walkIn_reaches body budget s
  | .branch test thenPart elsePart, budget, s => by
      rw [Program.walk]
      split
      · exact .refl
      · have first := (test.evaluate_reads s).reaches
        rcases ht : test.evaluate s with ⟨_ | _, t⟩
        · rw [ht] at first
          exact first.trans (elsePart.walk_reaches budget t)
        · rw [ht] at first
          exact first.trans (thenPart.walk_reaches budget t)
  | .loop test body, budget, s =>
      Reaches.repeatWhile (fun s => (test.evaluate_reads s).reaches)
        (fun budget s => body.walk_reaches budget s) budget s

theorem Program.walkIn_reaches : ∀ (ps : List Program) (budget : Nat) (s : σ),
    Reaches s (Program.walkIn ps budget s).state
  | [], _, _ => .refl
  | p :: ps, budget, s =>
      (p.walk_reaches budget s).trans (Program.walkIn_reaches ps _ _)

end

/-- **A full run only reads and attempts.** -/
theorem Program.run_reaches {p : Program} {passes n : Nat} {s t : σ}
    (run : p.run passes s = some (n, t)) : Reaches s t := by
  obtain ⟨-, state⟩ := p.walk_of_run run (Nat.lt_add_one n)
  rw [← state]
  exact p.walk_reaches (n + 1) s

end Runs

end RobotControl
