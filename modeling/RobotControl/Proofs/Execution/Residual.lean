import RobotControl.Proofs.Execution.Addressing
import RobotControl.Proofs.Execution.Walk

/-!
The rest of a program after one of its leaves.

What is still to be run after a leaf is a list of tasks: parts of the program, each with the number
of leaves before it. A leaf alone leaves nothing; in a sequence the later parts follow; in a branch
only the part with the leaf goes on, and its test is not read again; a loop follows its own body.

* `Program.advances_next`: `Program.next` walks the rest of the program, or the whole of it from 0,
  up to the first attempt, and behind the attempted leaf lies the rest of the program after it.
* `Program.walkAll_rest_of_none`, `Program.walkAll_rest_of_some`: the same for each of its answers.
-/

namespace RobotControl

/-- A part of a program that is still to be run. -/
structure Task where
  /-- How many leaves are numbered before those of the part. -/
  below : Nat
  program : Program

namespace Task

/-- The same task with `below` more leaves before it. -/
def shift (below : Nat) (t : Task) : Task :=
  { t with below := below + t.below }

/-- Programs that follow one another, the first with `below` leaves before it. -/
def inOrder (below : Nat) : List Program → List Task
  | [] => []
  | p :: ps => ⟨below, p⟩ :: inOrder (below + p.stepCount) ps

theorem map_shift_inOrder (below above : Nat) (ps : List Program) :
    (inOrder above ps).map (shift below) = inOrder (below + above) ps := by
  induction ps generalizing above with
  | nil => rfl
  | cons p ps ih => simp [inOrder, shift, ih, Nat.add_assoc]

end Task

mutual

/-- What is left of a program after the leaf with the number `last`. -/
def Program.residual : Program → (last : Nat) → List Task
  | .act _, _ => []
  | .seq body, last => Program.residualIn body last
  | .branch _ thenPart elsePart, last =>
    if last ≤ thenPart.stepCount then thenPart.residual last
    else (elsePart.residual (last - thenPart.stepCount)).map (Task.shift thenPart.stepCount)
  | .loop test body, last => body.residual last ++ [⟨0, .loop test body⟩]

/-- The same for programs that follow one another. -/
def Program.residualIn : List Program → (last : Nat) → List Task
  | [], _ => []
  | p :: ps, last =>
    if last ≤ p.stepCount then p.residual last ++ Task.inOrder p.stepCount ps
    else (Program.residualIn ps (last - p.stepCount)).map (Task.shift p.stepCount)

end

/-- What is still to be run from a cursor: everything if no leaf was attempted yet. -/
def Program.rest (p : Program) (last : Nat) : List Task :=
  if last = 0 then [⟨0, p⟩] else p.residual last

/-- The same for programs that follow one another. -/
def Program.restIn (ps : List Program) (last : Nat) : List Task :=
  if last = 0 then Task.inOrder 0 ps else Program.residualIn ps last

variable {σ : Type} [World σ]

namespace Task

/-- Walks a part of a program with the numbers of the whole. -/
def walk (t : Task) (budget : Nat) (s : σ) : Walk σ :=
  (t.program.walk budget s).shift t.below

/-- Walks tasks one after another. -/
def walkAll : List Task → (budget : Nat) → σ → Walk σ
  | [], budget, s => ⟨[], budget, s⟩
  | t :: ts, budget, s => (t.walk budget s).andThen (walkAll ts)

theorem walkAll_append (ts us : List Task) (budget : Nat) (s : σ) :
    walkAll (ts ++ us) budget s = (walkAll ts budget s).andThen (walkAll us) := by
  induction ts generalizing budget s with
  | nil => rfl
  | cons t ts ih => simp [walkAll, ih, Walk.andThen]

theorem walkAll_map_shift (below : Nat) (ts : List Task) (budget : Nat) (s : σ) :
    walkAll (ts.map (shift below)) budget s = (walkAll ts budget s).shift below := by
  induction ts generalizing budget s with
  | nil => rfl
  | cons t ts ih => simp [walkAll, walk, ih, Walk.andThen, Walk.shift, shift, Nat.add_assoc]

theorem walkAll_singleton (p : Program) (budget : Nat) (s : σ) :
    walkAll [⟨0, p⟩] budget s = p.walk budget s := by
  simp [walkAll, walk, Walk.andThen, Walk.shift]

theorem walkAll_inOrder (ps : List Program) (budget : Nat) (s : σ) :
    walkAll (inOrder 0 ps) budget s = Program.walkIn ps budget s := by
  induction ps generalizing budget s with
  | nil => rfl
  | cons p ps ih =>
      rw [inOrder, ← Nat.add_comm p.stepCount 0, ← map_shift_inOrder]
      simp [walkAll, walkAll_map_shift, walk, ih, Program.walkIn, Walk.andThen, Walk.shift]

end Task

/-- From the cursor 0 the whole program is run. -/
theorem Program.walkAll_rest_zero (p : Program) (budget : Nat) (s : σ) :
    Task.walkAll (p.rest 0) budget s = p.walk budget s := by
  rw [Program.rest, if_pos rfl, Task.walkAll_singleton]

theorem Program.rest_of_pos (p : Program) {last : Nat} (h : 0 < last) :
    p.rest last = p.residual last :=
  if_neg (Nat.ne_of_gt h)

/-! ### Up to the next attempt -/

/-- A walk with a budget does what an answer says: it ends without an attempt in the world of the
answer, or its first attempt is the leaf of the answer, made in the world of the answer, and behind
it the walk goes on through the rest after that leaf. -/
def Advances (leaf : Nat → Option Action) (residual : Nat → List Task) (budget : Nat)
    (w : Walk σ) : Option Nat × σ → Prop
  | (none, t) => w = ⟨[], budget + 1, t⟩
  | (some step, t) => ∃ action, leaf step = some action ∧
      w = (Task.walkAll (residual step) budget (perform action t).2).visit step

/-- Parts are walked with the numbers of the whole. -/
theorem Advances.shift {leaf leaf' : Nat → Option Action} {residual residual' : Nat → List Task}
    {budget below : Nat} {w : Walk σ} {step : Option Nat} {t : σ}
    (h : Advances leaf residual budget w (step, t))
    (hleaf : ∀ step action, leaf step = some action →
      leaf' (below + step) = some action ∧
        residual' (below + step) = (residual step).map (Task.shift below)) :
    Advances leaf' residual' budget (w.shift below) (step.map (below + ·), t) := by
  cases step with
  | none =>
      obtain rfl : w = ⟨[], budget + 1, t⟩ := h
      rfl
  | some step =>
      obtain ⟨action, ha, rfl⟩ := h
      obtain ⟨ha', hr⟩ := hleaf step action ha
      refine ⟨action, ha', ?_⟩
      rw [hr, Task.walkAll_map_shift]
      rfl

/-- The first part of a branch has the numbers of the whole. -/
theorem Advances.congr {leaf leaf' : Nat → Option Action} {residual residual' : Nat → List Task}
    {budget : Nat} {w : Walk σ} {answer : Option Nat × σ}
    (h : Advances leaf residual budget w answer)
    (hleaf : ∀ step action, leaf step = some action →
      leaf' step = some action ∧ residual' step = residual step) :
    Advances leaf' residual' budget w answer := by
  obtain ⟨_ | step, t⟩ := answer
  · exact h
  · obtain ⟨action, ha, rfl⟩ := h
    obtain ⟨ha', hr⟩ := hleaf step action ha
    exact ⟨action, ha', by rw [hr]⟩

/-- Tasks that follow are reached when those before them attempt nothing. -/
theorem Advances.andThen {leaf leaf' : Nat → Option Action} {residual residual' : Nat → List Task}
    {budget : Nat} {w : Walk σ} {first answer : Option Nat × σ} {later : List Task}
    (h : Advances leaf residual budget w first)
    (hsome : ∀ step action t, first = (some step, t) → leaf step = some action →
      answer = (some step, t) ∧ leaf' step = some action ∧
        residual' step = residual step ++ later)
    (hnone : ∀ t, first = (none, t) →
      Advances leaf' residual' budget (Task.walkAll later (budget + 1) t) answer) :
    Advances leaf' residual' budget (w.andThen (Task.walkAll later)) answer := by
  obtain ⟨_ | step, t⟩ := first
  · obtain rfl : w = ⟨[], budget + 1, t⟩ := h
    exact hnone t rfl
  · obtain ⟨action, ha, rfl⟩ := h
    obtain ⟨rfl, ha', hr⟩ := hsome step action t rfl ha
    refine ⟨action, ha', ?_⟩
    rw [hr, Task.walkAll_append]
    rfl

theorem Program.restIn_cons_left {p : Program} {last : Nat} (h : last ≤ p.stepCount)
    (ps : List Program) :
    Program.restIn (p :: ps) last = p.rest last ++ Task.inOrder p.stepCount ps := by
  by_cases hl : last = 0
  · simp [Program.restIn, Program.rest, Task.inOrder, hl]
  · simp [Program.restIn, Program.rest, Program.residualIn, hl, h]

theorem Program.restIn_cons_right {p : Program} {last : Nat} (h : ¬ last ≤ p.stepCount)
    (ps : List Program) :
    Program.restIn (p :: ps) last =
      (Program.restIn ps (last - p.stepCount)).map (Task.shift p.stepCount) := by
  rw [Program.restIn, if_neg (by omega), Program.residualIn, if_neg h, Program.restIn,
    if_neg (by omega)]

/-- A part of a sequence is numbered and left like the sequence itself, from its own numbers on. -/
theorem Program.leafIn?_residualIn_cons_right (p : Program) (ps : List Program) (step : Nat)
    (action : Action) (h : Program.leafIn? ps step = some action) :
    Program.leafIn? (p :: ps) (p.stepCount + step) = some action ∧
      Program.residualIn (p :: ps) (p.stepCount + step) =
        (Program.residualIn ps step).map (Task.shift p.stepCount) := by
  have bounds := Program.bounds_of_leafIn? h
  rw [Program.leafIn?_cons_right p bounds.1, Program.residualIn, if_neg (by omega),
    Nat.add_sub_cancel_left]
  exact ⟨h, rfl⟩

theorem Program.leaf?_residual_branch_left (test : Condition) (thenPart elsePart : Program)
    (step : Nat) (action : Action) (h : thenPart.leaf? step = some action) :
    (Program.branch test thenPart elsePart).leaf? step = some action ∧
      (Program.branch test thenPart elsePart).residual step = thenPart.residual step := by
  have bounds := Program.bounds_of_leaf? h
  rw [Program.leaf?_branch_left bounds.2, Program.residual, if_pos bounds.2]
  exact ⟨h, rfl⟩

theorem Program.leaf?_residual_branch_right (test : Condition) (thenPart elsePart : Program)
    (step : Nat) (action : Action) (h : elsePart.leaf? step = some action) :
    (Program.branch test thenPart elsePart).leaf? (thenPart.stepCount + step) = some action ∧
      (Program.branch test thenPart elsePart).residual (thenPart.stepCount + step) =
        (elsePart.residual step).map (Task.shift thenPart.stepCount) := by
  have bounds := Program.bounds_of_leaf? h
  rw [Program.leaf?_branch_right test thenPart bounds.1, Program.residual, if_neg (by omega),
    Nat.add_sub_cancel_left]
  exact ⟨h, rfl⟩

/-- A loop from its beginning does what its body does after a test that holds. -/
theorem Program.advances_loop (test : Condition) (body : Program) (budget : Nat) (s : σ)
    (ih : ∀ t : σ, Advances body.leaf? body.residual budget (body.walk (budget + 1) t)
      (body.next 0 t)) :
    Advances body.leaf? (Program.loop test body).residual budget
      (Task.walkAll [⟨0, .loop test body⟩] (budget + 1) s)
      ((Program.loop test body).next 0 s) := by
  rw [Task.walkAll_singleton, Program.walk, Program.next, if_pos rfl]
  rcases ht : test.evaluate s with ⟨_ | _, t⟩
  · exact Walk.repeatWhile_of_false ht body.walk (Nat.succ_pos budget)
  · have pass := ih t
    have paid := body.visited_add_left (budget + 1) t
    show Advances _ _ _ _ (body.next 0 t)
    rcases hn : body.next 0 t with ⟨_ | step, u⟩
    · rw [hn] at pass
      have quiet : body.walk (budget + 1) t = ⟨[], budget + 1, u⟩ := pass
      show _ = _
      rw [Walk.repeatWhile_of_not_lt ht (Nat.succ_pos budget) (by simp [quiet]), quiet]
    · rw [hn] at pass
      obtain ⟨action, ha, hw⟩ := pass
      have attempted : 1 ≤ (body.walk (budget + 1) t).visited.length := by simp [hw]
      refine ⟨action, ha, ?_⟩
      have hloop : Task.walkAll [⟨0, .loop test body⟩] =
          (Walk.repeatWhile test.evaluate body.walk : Nat → σ → Walk σ) :=
        funext fun b => funext fun v => Task.walkAll_singleton (.loop test body) b v
      rw [Walk.repeatWhile_of_lt ht (by omega), hw, Program.residual, Task.walkAll_append, hloop]
      rfl

mutual

/-- **Finding the next step is walking the rest of the program up to its first attempt.** -/
theorem Program.advances_next : ∀ (p : Program) {last : Nat}, last ≤ p.stepCount →
    ∀ (budget : Nat) (s : σ), Advances p.leaf? p.residual budget
      (Task.walkAll (p.rest last) (budget + 1) s) (p.next last s)
  | .act action, last, h, budget, s => by
      rcases Nat.eq_zero_or_pos last with rfl | pos
      · rw [Program.walkAll_rest_zero]
        exact ⟨action, rfl, rfl⟩
      · rw [Program.rest_of_pos _ pos, Program.next, if_neg (Nat.ne_of_gt pos)]
        rfl
  | .seq body, last, h, budget, s => by
      have rest : Task.walkAll ((Program.seq body).rest last) (budget + 1) s =
          Task.walkAll (Program.restIn body last) (budget + 1) s := by
        rcases Nat.eq_zero_or_pos last with rfl | pos
        · rw [Program.walkAll_rest_zero, Program.restIn, if_pos rfl, Task.walkAll_inOrder,
            Program.walk]
        · rw [Program.rest_of_pos _ pos, Program.restIn, if_neg (Nat.ne_of_gt pos),
            Program.residual]
      rw [rest]
      exact Program.advancesIn_next body h budget s
  | .branch test thenPart elsePart, last, h, budget, s => by
      have first {last : Nat} (hl : last ≤ thenPart.stepCount) (t : σ) :=
        (thenPart.advances_next hl budget t).congr
          (Program.leaf?_residual_branch_left test thenPart elsePart)
      have second {last : Nat} (hl : last ≤ elsePart.stepCount) (t : σ) :=
        (elsePart.advances_next hl budget t).shift
          (Program.leaf?_residual_branch_right test thenPart elsePart)
      simp only [Program.stepCount] at h
      rcases Nat.eq_zero_or_pos last with rfl | pos
      · rw [Program.walkAll_rest_zero, Program.next, if_pos rfl, Program.walk,
          if_neg (Nat.succ_ne_zero budget)]
        rcases test.evaluate s with ⟨_ | _, t⟩
        · have chosen := second (Nat.zero_le _) t
          rw [Program.walkAll_rest_zero] at chosen
          exact chosen
        · have chosen := first (Nat.zero_le _) t
          rw [Program.walkAll_rest_zero] at chosen
          exact chosen
      · rw [Program.rest_of_pos _ pos, Program.next, if_neg (Nat.ne_of_gt pos), Program.residual]
        by_cases hl : last ≤ thenPart.stepCount
        · rw [if_pos hl, if_pos hl, ← Program.rest_of_pos _ pos]
          exact first hl s
        · rw [if_neg hl, if_neg hl, Task.walkAll_map_shift, ← Program.rest_of_pos _ (by omega)]
          exact second (by omega) s
  | .loop test body, last, h, budget, s => by
      have again (t : σ) := Program.advances_loop test body budget t fun u => by
        rw [← Program.walkAll_rest_zero]
        exact body.advances_next (Nat.zero_le _) budget u
      rcases Nat.eq_zero_or_pos last with rfl | pos
      · exact again s
      · rw [Program.rest_of_pos _ pos, Program.residual, ← Program.rest_of_pos _ pos,
          Task.walkAll_append]
        apply (body.advances_next h budget s).andThen
        · intro step action t first ha
          exact ⟨Program.next_loop_of_some (Nat.ne_of_gt pos) first, ha, rfl⟩
        · intro t first
          rw [Program.next_loop_of_none (Nat.ne_of_gt pos) first]
          exact again t

theorem Program.advancesIn_next : ∀ (ps : List Program) {last : Nat},
    last ≤ Program.stepCountOf ps → ∀ (budget : Nat) (s : σ),
      Advances (Program.leafIn? ps) (Program.residualIn ps) budget
        (Task.walkAll (Program.restIn ps last) (budget + 1) s) (Program.nextIn ps last s)
  | [], last, h, budget, s => by
      obtain rfl : last = 0 := Nat.le_zero.mp h
      rfl
  | p :: ps, last, h, budget, s => by
      have later (last : Nat) (hl : last ≤ Program.stepCountOf ps) (t : σ) :=
        (Program.advancesIn_next ps hl budget t).shift
          (Program.leafIn?_residualIn_cons_right p ps)
      rcases Nat.lt_or_ge p.stepCount last with hl | hl
      · rw [Program.restIn_cons_right (Nat.not_le_of_lt hl), Task.walkAll_map_shift,
          Program.nextIn_cons_of_lt hl]
        exact later _ (by simp only [Program.stepCountOf] at h; omega) s
      · rw [Program.restIn_cons_left hl, Task.walkAll_append]
        apply (p.advances_next hl budget s).andThen
        · intro step action t first ha
          have bounds := Program.bounds_of_leaf? ha
          rw [Program.nextIn_cons_of_some hl first, Program.leafIn?_cons_left bounds.2,
            Program.residualIn, if_pos bounds.2]
          exact ⟨rfl, ha, rfl⟩
        · intro t first
          rw [Program.nextIn_cons_of_none hl first, ← Nat.add_zero p.stepCount,
            ← Task.map_shift_inOrder, Task.walkAll_map_shift]
          exact later 0 (Nat.zero_le _) t

end

theorem Program.walkAll_rest_of_none {p : Program} {last : Nat} {s t : σ} (h : last ≤ p.stepCount)
    (hn : p.next last s = (none, t)) (budget : Nat) :
    Task.walkAll (p.rest last) (budget + 1) s = ⟨[], budget + 1, t⟩ := by
  have advance := p.advances_next h budget s
  rwa [hn] at advance

theorem Program.walkAll_rest_of_some {p : Program} {last step : Nat} {s t : σ}
    (h : last ≤ p.stepCount) (hn : p.next last s = (some step, t)) :
    ∃ action, p.leaf? step = some action ∧ ∀ budget,
      Task.walkAll (p.rest last) (budget + 1) s =
        (Task.walkAll (p.rest step) budget (perform action t).2).visit step := by
  have advance (budget : Nat) := p.advances_next h budget s
  rw [hn] at advance
  obtain ⟨action, ha, -⟩ := advance 0
  refine ⟨action, ha, ?_⟩
  intro budget
  obtain ⟨action', ha', hw⟩ := advance budget
  obtain rfl : action = action' := Option.some.inj (ha.symm.trans ha')
  rw [hw, p.rest_of_pos (Program.bounds_of_leaf? ha).1]

end RobotControl
