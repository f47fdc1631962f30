import RobotControl.Proofs.Execution.Recording
import RobotControl.World.Scripted

/-!
Attempting a step by its number.

The number alone decides which action is attempted, and whether there is one. The search for it goes
down the program and leaves the world alone, also where it comes to nothing.

* `Program.tryStep`: `Program.performStep`, with the world that is left where no action has the
  number.
* `Program.performStep_eq_tryStep`: the two answer the same.
* `Program.tryStep_of_leaf?_eq_none`: a number without a leaf fails in every world alike and leaves
  it as it was.
* `Program.performStep_attempts_leaf`: a number leads to its leaf and attempts its action, or nothing
  is done at all.
-/

namespace RobotControl

section Search

variable {σ : Type} [World σ]

mutual

/-- Attempts the action with the given number. Answers with the world at the end of the search for
it. -/
def Program.tryStep : Program → (step : Nat) → σ → Except StepError Attempt × σ
  | .act action, step, s =>
    if step = 1 then
      let (attempt, s) := perform action s
      (.ok attempt, s)
    else (.error (.noSuchStep step), s)
  | .seq body, step, s =>
    (Program.tryStepIn body step s).getD (.error (.noSuchStep step), s)
  | .branch _ thenPart elsePart, step, s =>
    if step = 0 then (.error (.noSuchStep step), s)
    else if step ≤ thenPart.stepCount then thenPart.tryStep step s
    else elsePart.tryStep (step - thenPart.stepCount) s
  | .loop _ body, step, s => body.tryStep step s

/-- The same in programs that follow one another: the one whose range holds the number does it. -/
def Program.tryStepIn : List Program → (step : Nat) → σ → Option (Except StepError Attempt × σ)
  | [], _, _ => none
  | p :: ps, step, s =>
    if 0 < step ∧ step ≤ p.stepCount then some (p.tryStep step s)
    else Program.tryStepIn ps (step - p.stepCount) s

end

/-- Keeps the world only beside an attempt. -/
def worldIfAttempted : Except StepError Attempt × σ → Except StepError (Attempt × σ)
  | (.ok attempt, s) => .ok (attempt, s)
  | (.error error, _) => .error error

mutual

/-- Where an action is attempted, the world is the same, and elsewhere the failure. -/
theorem Program.performStep_eq_tryStep : ∀ (p : Program) (step : Nat) (s : σ),
    p.performStep step s = worldIfAttempted (p.tryStep step s)
  | .act action, step, s => by
      rw [performStep, tryStep]
      split <;> rfl
  | .seq body, step, s => by
      rw [performStep, tryStep, Program.performStepIn_eq_tryStepIn body step s]
      cases Program.tryStepIn body step s <;> rfl
  | .branch test thenPart elsePart, step, s => by
      rw [performStep, tryStep]
      split
      · rfl
      · split
        · exact thenPart.performStep_eq_tryStep step s
        · exact elsePart.performStep_eq_tryStep (step - thenPart.stepCount) s
  | .loop _ body, step, s => body.performStep_eq_tryStep step s

theorem Program.performStepIn_eq_tryStepIn : ∀ (ps : List Program) (step : Nat) (s : σ),
    Program.performStepIn ps step s = (Program.tryStepIn ps step s).map worldIfAttempted
  | [], _, _ => rfl
  | p :: ps, step, s => by
      rw [performStepIn, tryStepIn]
      split
      · rw [p.performStep_eq_tryStep step s, Option.map_some]
      · exact Program.performStepIn_eq_tryStepIn ps (step - p.stepCount) s

end

/-- The action of a leaf is attempted. -/
theorem Program.tryStep_of_leaf? {p : Program} {step : Nat} {action : Action} (s : σ)
    (h : p.leaf? step = some action) :
    p.tryStep step s = (.ok (perform action s).1, (perform action s).2) := by
  have performed := p.performStep_of_leaf? s h
  rw [p.performStep_eq_tryStep step s] at performed
  rcases hp : p.tryStep step s with ⟨error | attempt, t⟩
  · rw [hp] at performed
    cases performed
  · rw [hp] at performed
    rw [← Except.ok.inj performed]

end Search

mutual

/-- **Where no leaf has the number, nothing is done.** -/
theorem Program.tryStep_of_leaf?_eq_none : ∀ (p : Program) {step : Nat}, p.leaf? step = none →
    ∃ n, ∀ {σ : Type} [World σ] (s : σ), p.tryStep step s = (.error (.noSuchStep n), s)
  | .act action, step, h => by
      have h1 : step ≠ 1 := by
        rintro rfl
        cases h
      exact ⟨step, fun s => by rw [tryStep, if_neg h1]⟩
  | .seq body, step, h => by
      refine ⟨step, ?_⟩
      intro σ _ s
      rw [tryStep, Program.tryStepIn_of_leafIn?_eq_none body h s]
      rfl
  | .branch test thenPart elsePart, step, h => by
      by_cases h0 : step = 0
      · exact ⟨step, fun s => by rw [tryStep, if_pos h0]⟩
      · by_cases hs : step ≤ thenPart.stepCount
        · rw [leaf?_branch_left hs] at h
          obtain ⟨n, fails⟩ := thenPart.tryStep_of_leaf?_eq_none h
          exact ⟨n, fun s => by rw [tryStep, if_neg h0, if_pos hs, fails]⟩
        · obtain ⟨rest, rfl⟩ : ∃ rest, step = thenPart.stepCount + rest :=
            ⟨step - thenPart.stepCount, by omega⟩
          rw [leaf?_branch_right test thenPart (by omega)] at h
          obtain ⟨n, fails⟩ := elsePart.tryStep_of_leaf?_eq_none h
          exact ⟨n, fun s => by
            rw [tryStep, if_neg h0, if_neg hs, Nat.add_sub_cancel_left, fails]⟩
  | .loop _ body, _, h => body.tryStep_of_leaf?_eq_none h

theorem Program.tryStepIn_of_leafIn?_eq_none : ∀ (ps : List Program) {step : Nat},
    Program.leafIn? ps step = none → ∀ {σ : Type} [World σ] (s : σ),
      Program.tryStepIn ps step s = none
  | [], _, _, _, _, _ => rfl
  | p :: ps, step, h, σ, _, s => by
      rw [tryStepIn]
      by_cases hs : step ≤ p.stepCount
      · rcases Nat.eq_zero_or_pos step with rfl | pos
        · rw [if_neg (by omega), Nat.zero_sub]
          exact Program.tryStepIn_of_leafIn?_eq_none ps rfl s
        · have found := leaf?_isSome_iff.mpr ⟨pos, hs⟩
          rw [← leafIn?_cons_left hs ps, h] at found
          cases found
      · obtain ⟨rest, rfl⟩ : ∃ rest, step = p.stepCount + rest := ⟨step - p.stepCount, by omega⟩
        rw [leafIn?_cons_right p (by omega)] at h
        rw [if_neg (by omega), Nat.add_sub_cancel_left]
        exact Program.tryStepIn_of_leafIn?_eq_none ps h s

end

namespace Program

variable {σ : Type} [World σ]

/-- **A number leads to its leaf, or nothing is done.** A number of a step attempts the action of that
leaf, which is the only use of the world, and answers its outcome. Any other number fails in all
worlds alike, and no world has been used when it does. -/
theorem performStep_attempts_leaf (p : Program) (step : Nat) :
    p.leaves.length = p.stepCount ∧
    (∀ s : σ, p.performStep step s = worldIfAttempted (p.tryStep step s)) ∧
    (1 ≤ step → step ≤ p.stepCount → ∃ action, p.leaves[step - 1]? = some action ∧
      (∀ s : σ, p.performStep step s = .ok (perform action s)) ∧
      ∀ r : Recorded σ, ∃ outcome t, World.attempt action r.state = (outcome, t) ∧
        p.tryStep step r = (.ok ⟨action, outcome⟩, r.note (.attempted ⟨action, outcome⟩) t)) ∧
    (¬ (1 ≤ step ∧ step ≤ p.stepCount) → ∃ n,
      (∀ s : σ, p.performStep step s = .error (.noSuchStep n)) ∧
      ∀ r : Recorded σ, p.tryStep step r = (.error (.noSuchStep n), r)) := by
  refine ⟨p.length_leaves, fun s => p.performStep_eq_tryStep step s, ?_, ?_⟩
  · intro hlow hhigh
    obtain ⟨action, ha⟩ := Option.isSome_iff_exists.mp (leaf?_isSome_iff.mpr ⟨hlow, hhigh⟩)
    refine ⟨action, by rw [← p.leaf?_eq_getElem? hlow, ha], ?_, ?_⟩
    · intro s
      exact p.performStep_of_leaf? s ha
    · intro r
      exact ⟨_, _, rfl, tryStep_of_leaf? r ha⟩
  · intro beyond
    have none : p.leaf? step = none := by
      rw [← Option.not_isSome_iff_eq_none, leaf?_isSome_iff]
      exact beyond
    obtain ⟨n, fails⟩ := p.tryStep_of_leaf?_eq_none none
    refine ⟨n, ?_, fun r => fails r⟩
    intro s
    rw [p.performStep_eq_tryStep step s, fails s, worldIfAttempted]

/-- Parts without leaves take no numbers, a loop numbers one pass, and a third step is nowhere. -/
theorem performStep_attempts_leaf_numbered :
    let detour : Program := .seq [.seq [], .branch (.sensor .wall) (.seq []) (.act .move),
      .loop (.constant true) (.act .shoot)]
    (1 ≤ 2 ∧ 2 ≤ detour.stepCount ∧
      ∀ w : ScriptedWorld, detour.performStep 2 w = .ok (perform .shoot w)) ∧
    ¬ (1 ≤ 3 ∧ 3 ≤ detour.stepCount) ∧
      ∃ n, ∀ r : Recorded ScriptedWorld, detour.tryStep 3 r = (.error (.noSuchStep n), r) := by
  intro detour
  have beyond : ¬ (1 ≤ 3 ∧ 3 ≤ detour.stepCount) := by decide
  obtain ⟨-, -, located, -⟩ := performStep_attempts_leaf (σ := ScriptedWorld) detour 2
  obtain ⟨-, -, -, lost⟩ := performStep_attempts_leaf (σ := ScriptedWorld) detour 3
  obtain ⟨action, leaf, performed, -⟩ := located (by decide) (by decide)
  obtain rfl : Action.shoot = action := Option.some.inj leaf
  obtain ⟨n, -, untouched⟩ := lost beyond
  exact ⟨⟨by decide, by decide, performed⟩, beyond, n, untouched⟩

end Program

end RobotControl
