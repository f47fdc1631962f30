import RobotControl.Execution.Step

/-!
Leaves by their numbers.

The leaves of a program are numbered from 1 along `Program.leaves`; 0 is the number of none.

* `Program.leaf?_isSome_iff`: the numbers of leaves are those from 1 to the step count.
* `Program.performStep_of_leaf?`: `Program.performStep` finds the leaf of a number and does nothing
  but attempt its action.
* `Program.next_loop_of_none`: a loop whose body is over is asked again from its beginning.
* `Program.next_branch_cases`, `Program.next_loop_cases`, `Program.nextIn_cons_cases`: in which part
  the next step of a program was found.
* `Program.exists_leaf?_of_next`: from whatever number an execution is resumed, what follows is a
  leaf.
-/

namespace RobotControl

/-- The action with a number, counted from 1. -/
def numbered? (actions : List Action) : (step : Nat) → Option Action
  | 0 => none
  | step + 1 => actions[step]?

theorem numbered?_isSome_iff {actions : List Action} {step : Nat} :
    (numbered? actions step).isSome ↔ 1 ≤ step ∧ step ≤ actions.length := by
  cases step with
  | zero => simp [numbered?]
  | succ step =>
      rw [numbered?, isSome_getElem?]
      omega

theorem numbered?_append_left {xs ys : List Action} {step : Nat} (h : step ≤ xs.length) :
    numbered? (xs ++ ys) step = numbered? xs step := by
  cases step with
  | zero => rfl
  | succ step => exact List.getElem?_append_left h

theorem numbered?_append_right {xs ys : List Action} {step : Nat} (h : 1 ≤ step) :
    numbered? (xs ++ ys) (xs.length + step) = numbered? ys step := by
  cases step with
  | zero => contradiction
  | succ step =>
      show (xs ++ ys)[xs.length + step]? = ys[step]?
      rw [List.getElem?_append_right (Nat.le_add_right _ _), Nat.add_sub_cancel_left]

namespace Program

/-- The action of the leaf with a number. -/
def leaf? (p : Program) (step : Nat) : Option Action :=
  numbered? p.leaves step

/-- The action of a leaf of programs that follow one another. -/
def leafIn? (ps : List Program) (step : Nat) : Option Action :=
  numbered? (leavesOf ps) step

theorem leaf?_isSome_iff {p : Program} {step : Nat} :
    (p.leaf? step).isSome ↔ 1 ≤ step ∧ step ≤ p.stepCount := by
  rw [leaf?, numbered?_isSome_iff, length_leaves]

theorem bounds_of_leaf? {p : Program} {step : Nat} {action : Action}
    (h : p.leaf? step = some action) : 1 ≤ step ∧ step ≤ p.stepCount :=
  leaf?_isSome_iff.mp (by simp [h])

/-- A number from 1 on counts along the leaves. -/
theorem leaf?_eq_getElem? (p : Program) {step : Nat} (h : 1 ≤ step) :
    p.leaf? step = p.leaves[step - 1]? := by
  obtain ⟨before, rfl⟩ : ∃ before, step = before + 1 := ⟨step - 1, by omega⟩
  rfl

theorem bounds_of_leafIn? {ps : List Program} {step : Nat} {action : Action}
    (h : leafIn? ps step = some action) : 1 ≤ step ∧ step ≤ stepCountOf ps := by
  have hs : (numbered? (leavesOf ps) step).isSome := by simp [leafIn?] at h; simp [h]
  rwa [numbered?_isSome_iff, length_leavesOf] at hs

theorem leafIn?_cons_left {p : Program} {step : Nat} (h : step ≤ p.stepCount)
    (ps : List Program) : leafIn? (p :: ps) step = p.leaf? step :=
  numbered?_append_left (by rwa [length_leaves])

theorem leafIn?_cons_right (p : Program) {ps : List Program} {step : Nat} (h : 1 ≤ step) :
    leafIn? (p :: ps) (p.stepCount + step) = leafIn? ps step := by
  rw [← length_leaves]
  exact numbered?_append_right h

theorem leaf?_branch_left {thenPart : Program} {step : Nat} (h : step ≤ thenPart.stepCount)
    (test : Condition) (elsePart : Program) :
    (branch test thenPart elsePart).leaf? step = thenPart.leaf? step :=
  numbered?_append_left (by rwa [length_leaves])

theorem leaf?_branch_right (test : Condition) (thenPart : Program) {elsePart : Program}
    {step : Nat} (h : 1 ≤ step) :
    (branch test thenPart elsePart).leaf? (thenPart.stepCount + step) = elsePart.leaf? step := by
  rw [← length_leaves]
  exact numbered?_append_right h

end Program

variable {σ : Type} [World σ]

mutual

/-- The action of a leaf is attempted, and nothing else is done. -/
theorem Program.performStep_of_leaf? : ∀ (p : Program) {step : Nat} {action : Action} (s : σ),
    p.leaf? step = some action → p.performStep step s = .ok (perform action s)
  | .act only, step, action, s, h => by
      obtain rfl : step = 1 := by
        have := Program.bounds_of_leaf? h
        simp only [Program.stepCount] at this
        omega
      obtain rfl : only = action := Option.some.inj h
      rfl
  | .seq body, step, action, s, h => by
      simp only [Program.performStep, Program.performStepIn_of_leafIn? body s h, Option.getD_some]
  | .branch test thenPart elsePart, step, action, s, h => by
      have bounds := Program.bounds_of_leaf? h
      rw [Program.performStep, if_neg (by omega)]
      by_cases hs : step ≤ thenPart.stepCount
      · rw [if_pos hs]
        rw [Program.leaf?_branch_left hs] at h
        exact thenPart.performStep_of_leaf? s h
      · obtain ⟨rest, rfl⟩ : ∃ rest, step = thenPart.stepCount + rest :=
          ⟨step - thenPart.stepCount, by omega⟩
        rw [Program.leaf?_branch_right test thenPart (by omega)] at h
        rw [if_neg hs, Nat.add_sub_cancel_left]
        exact elsePart.performStep_of_leaf? s h
  | .loop _ body, _, _, s, h => body.performStep_of_leaf? s h

theorem Program.performStepIn_of_leafIn? : ∀ (ps : List Program) {step : Nat} {action : Action}
    (s : σ), Program.leafIn? ps step = some action →
      Program.performStepIn ps step s = some (.ok (perform action s))
  | [], step, action, s, h => by
      have := Program.bounds_of_leafIn? h
      simp only [Program.stepCountOf] at this
      omega
  | p :: ps, step, action, s, h => by
      have bounds := Program.bounds_of_leafIn? h
      by_cases hs : step ≤ p.stepCount
      · rw [Program.leafIn?_cons_left hs] at h
        rw [Program.performStepIn, if_pos ⟨by omega, hs⟩, p.performStep_of_leaf? s h]
      · obtain ⟨rest, rfl⟩ : ∃ rest, step = p.stepCount + rest := ⟨step - p.stepCount, by omega⟩
        rw [Program.leafIn?_cons_right p (by omega)] at h
        rw [Program.performStepIn, if_neg (by omega), Nat.add_sub_cancel_left]
        exact Program.performStepIn_of_leafIn? ps s h

end

/-- A loop whose body goes on needs no test. -/
theorem Program.next_loop_of_some {test : Condition} {body : Program} {last step : Nat} {s t : σ}
    (h : last ≠ 0) (hb : body.next last s = (some step, t)) :
    (Program.loop test body).next last s = (some step, t) := by
  rw [Program.next, if_neg h, hb]

/-- A loop whose body is over is asked again from its beginning. -/
theorem Program.next_loop_of_none {test : Condition} {body : Program} {last : Nat} {s t : σ}
    (h : last ≠ 0) (hb : body.next last s = (none, t)) :
    (Program.loop test body).next last s = (Program.loop test body).next 0 t := by
  rw [Program.next, if_neg h, hb, Program.next, if_pos rfl]

/-! ### What a next step is

Where a part of a program has found what follows, the whole has found the same leaf under its own
number. -/

/-- What follows in a branch is found on the side that the cursor is on, and from the cursor 0 on the
side that the test chooses. -/
theorem Program.next_branch_cases {test : Condition} {thenPart elsePart : Program}
    {last step : Nat} {s t : σ}
    (h : (Program.branch test thenPart elsePart).next last s = (some step, t)) :
    (last ≤ thenPart.stepCount ∧ ∃ u, thenPart.next last u = (some step, t)) ∨
      ((last = 0 ∨ thenPart.stepCount < last) ∧ ∃ rest u,
        step = thenPart.stepCount + rest ∧
          elsePart.next (last - thenPart.stepCount) u = (some rest, t)) := by
  have second {last : Nat} {u : σ}
      (h : ((elsePart.next last u).1.map (thenPart.stepCount + ·), (elsePart.next last u).2) =
        (some step, t)) :
      ∃ rest u, step = thenPart.stepCount + rest ∧ elsePart.next last u = (some rest, t) := by
    obtain ⟨hmap, hstate⟩ := Prod.mk.inj h
    obtain ⟨rest, hrest, rfl⟩ := Option.map_eq_some_iff.mp hmap
    exact ⟨rest, u, rfl, Prod.ext hrest hstate⟩
  rw [Program.next] at h
  by_cases h0 : last = 0
  · subst h0
    rw [if_pos rfl] at h
    rw [Nat.zero_sub]
    rcases ht : test.evaluate s with ⟨_ | _, u⟩
    · rw [ht] at h
      exact .inr ⟨.inl rfl, second h⟩
    · rw [ht] at h
      exact .inl ⟨Nat.zero_le _, u, h⟩
  · rw [if_neg h0] at h
    by_cases hl : last ≤ thenPart.stepCount
    · rw [if_pos hl] at h
      exact .inl ⟨hl, s, h⟩
    · rw [if_neg hl] at h
      exact .inr ⟨.inr (Nat.lt_of_not_le hl), second h⟩

/-- What follows in a loop is found in its body, from the cursor or from the beginning. -/
theorem Program.next_loop_cases {test : Condition} {body : Program} {last step : Nat} {s t : σ}
    (h : (Program.loop test body).next last s = (some step, t)) :
    ∃ cursor u, body.next cursor u = (some step, t) := by
  have again {u : σ} (h : (Program.loop test body).next 0 u = (some step, t)) :
      ∃ cursor u, body.next cursor u = (some step, t) := by
    rw [Program.next, if_pos rfl] at h
    rcases ht : test.evaluate u with ⟨_ | _, v⟩
    · rw [ht] at h
      cases h
    · rw [ht] at h
      exact ⟨0, v, h⟩
  by_cases h0 : last = 0
  · rw [h0] at h
    exact again h
  · rcases hb : body.next last s with ⟨_ | index, u⟩
    · rw [Program.next_loop_of_none h0 hb] at h
      exact again h
    · rw [Program.next_loop_of_some h0 hb] at h
      exact ⟨last, s, hb.trans h⟩

/-- The first program answers if it can and the cursor is not behind it. -/
theorem Program.nextIn_cons_of_some {p : Program} {last step : Nat} {s t : σ}
    (hl : last ≤ p.stepCount) (hp : p.next last s = (some step, t)) (ps : List Program) :
    Program.nextIn (p :: ps) last s = (some step, t) := by
  rw [Program.nextIn]
  simp only [hl, if_true, hp]

/-- Programs that follow are asked from their beginning where the first one is over. -/
theorem Program.nextIn_cons_of_none {p : Program} {last : Nat} {s t : σ}
    (hl : last ≤ p.stepCount) (hp : p.next last s = (none, t)) (ps : List Program) :
    Program.nextIn (p :: ps) last s =
      Prod.map (Option.map (p.stepCount + ·)) id (Program.nextIn ps 0 t) := by
  rw [Program.nextIn]
  simp only [hl, if_true, hp, Nat.sub_eq_zero_of_le hl]
  rfl

/-- A cursor behind the first program is one of those that follow. -/
theorem Program.nextIn_cons_of_lt {p : Program} {last : Nat} (hl : p.stepCount < last)
    (ps : List Program) (s : σ) :
    Program.nextIn (p :: ps) last s =
      Prod.map (Option.map (p.stepCount + ·)) id (Program.nextIn ps (last - p.stepCount) s) := by
  rw [Program.nextIn]
  simp only [Nat.not_le_of_lt hl, if_false]
  rfl

/-- What follows in programs that follow one another is found in the first one, if the cursor is not
behind it, or in the others. -/
theorem Program.nextIn_cons_cases {p : Program} {ps : List Program} {last step : Nat} {s t : σ}
    (h : Program.nextIn (p :: ps) last s = (some step, t)) :
    (last ≤ p.stepCount ∧ p.next last s = (some step, t)) ∨
      ∃ rest u, step = p.stepCount + rest ∧
        Program.nextIn ps (last - p.stepCount) u = (some rest, t) := by
  have later {cursor : Nat} {u : σ} (h : Prod.map (Option.map (p.stepCount + ·)) id
      (Program.nextIn ps cursor u) = (some step, t)) :
      ∃ rest u, step = p.stepCount + rest ∧ Program.nextIn ps cursor u = (some rest, t) := by
    obtain ⟨hmap, hstate⟩ := Prod.mk.inj h
    obtain ⟨rest, hrest, rfl⟩ := Option.map_eq_some_iff.mp hmap
    exact ⟨rest, u, rfl, Prod.ext hrest hstate⟩
  by_cases hl : last ≤ p.stepCount
  · rcases hp : p.next last s with ⟨_ | index, u⟩
    · rw [Program.nextIn_cons_of_none hl hp] at h
      rw [Nat.sub_eq_zero_of_le hl]
      exact .inr (later h)
    · rw [Program.nextIn_cons_of_some hl hp] at h
      exact .inl ⟨hl, h⟩
  · rw [Program.nextIn_cons_of_lt (Nat.lt_of_not_le hl)] at h
    exact .inr (later h)

mutual

/-- **What follows is a leaf.** The number from which an execution is resumed need not be one. -/
theorem Program.exists_leaf?_of_next : ∀ (p : Program) {last step : Nat} {s t : σ},
    p.next last s = (some step, t) → ∃ action, p.leaf? step = some action
  | .act action, last, step, s, t, h => by
      rw [Program.next] at h
      by_cases h0 : last = 0
      · rw [if_pos h0, Prod.mk.injEq, Option.some.injEq] at h
        exact ⟨action, by rw [← h.1]; rfl⟩
      · rw [if_neg h0] at h
        cases h
  | .seq body, last, step, s, t, h => Program.exists_leafIn?_of_nextIn body h
  | .branch test thenPart elsePart, last, step, s, t, h => by
      rcases Program.next_branch_cases h with ⟨-, u, first⟩ | ⟨-, rest, u, rfl, second⟩
      · obtain ⟨action, ha⟩ := thenPart.exists_leaf?_of_next first
        exact ⟨action, by rwa [Program.leaf?_branch_left (Program.bounds_of_leaf? ha).2]⟩
      · obtain ⟨action, ha⟩ := elsePart.exists_leaf?_of_next second
        exact ⟨action, by
          rwa [Program.leaf?_branch_right test thenPart (Program.bounds_of_leaf? ha).1]⟩
  | .loop test body, last, step, s, t, h => by
      obtain ⟨cursor, u, pass⟩ := Program.next_loop_cases h
      exact body.exists_leaf?_of_next pass

theorem Program.exists_leafIn?_of_nextIn : ∀ (ps : List Program) {last step : Nat} {s t : σ},
    Program.nextIn ps last s = (some step, t) → ∃ action, Program.leafIn? ps step = some action
  | [], _, _, _, _, h => by cases h
  | p :: ps, last, step, s, t, h => by
      rcases Program.nextIn_cons_cases h with ⟨-, first⟩ | ⟨rest, u, rfl, later⟩
      · obtain ⟨action, ha⟩ := p.exists_leaf?_of_next first
        exact ⟨action, by rwa [Program.leafIn?_cons_left (Program.bounds_of_leaf? ha).2]⟩
      · obtain ⟨action, ha⟩ := Program.exists_leafIn?_of_nextIn ps later
        exact ⟨action, by
          rwa [Program.leafIn?_cons_right p (Program.bounds_of_leafIn? ha).1]⟩

end

end RobotControl
