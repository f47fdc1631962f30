import RobotControl.Execution.Run

/-!
Interrupted runs.

`Program.walk` is the full run of a program, broken off right after a given number of attempts. It
needs no bound on the passes of a loop: a pass attempts an action or it is the last one. So a walk
also shows the beginning of a run that never ends. Beside the world it leaves, a walk names the
leaves it attempted by their numbers.

* `Program.visited_add_left`: every attempt is paid from the budget.
* `Program.exists_run_iff`: a run ends after `n` attempts exactly when a walk with the budget
  `n + 1` has one attempt left, and then both leave the same world.
* `Program.left_eq_zero_of_not_run`: a run that never ends uses up every budget.
-/

namespace RobotControl

/-- What an interrupted run did. -/
structure Walk (σ : Type) where
  /-- The numbers of the leaves that were attempted, in order. -/
  visited : List Nat
  /-- How many more attempts were allowed. If there is one, the run came to its end. -/
  left : Nat
  state : σ

namespace Walk

variable {σ : Type}

/-- The same walk with `below` leaves numbered before its own. -/
def shift (below : Nat) (w : Walk σ) : Walk σ :=
  { w with visited := w.visited.map (below + ·) }

/-- The same walk with one leaf before the others. -/
def visit (leaf : Nat) (w : Walk σ) : Walk σ :=
  { w with visited := leaf :: w.visited }

/-- Goes on with the budget and the world that a walk left. -/
def andThen (w : Walk σ) (next : Nat → σ → Walk σ) : Walk σ :=
  let v := next w.left w.state
  ⟨w.visited ++ v.visited, v.left, v.state⟩

/-- Repeats a pass while a test holds. A pass that leaves the budget as it was is the last. -/
def repeatWhile (test : σ → Bool × σ) (pass : Nat → σ → Walk σ) (budget : Nat) (s : σ) : Walk σ :=
  if budget = 0 then ⟨[], 0, s⟩
  else match test s with
    | (false, s) => ⟨[], budget, s⟩
    | (true, s) =>
      let w := pass budget s
      if w.left < budget then
        let v := repeatWhile test pass w.left w.state
        ⟨w.visited ++ v.visited, v.left, v.state⟩
      else w
termination_by budget

@[simp] theorem shift_visited (below : Nat) (w : Walk σ) :
    (w.shift below).visited = w.visited.map (below + ·) := rfl

@[simp] theorem shift_left (below : Nat) (w : Walk σ) : (w.shift below).left = w.left := rfl

@[simp] theorem shift_state (below : Nat) (w : Walk σ) : (w.shift below).state = w.state := rfl

@[simp] theorem visit_visited (leaf : Nat) (w : Walk σ) :
    (w.visit leaf).visited = leaf :: w.visited := rfl

@[simp] theorem visit_left (leaf : Nat) (w : Walk σ) : (w.visit leaf).left = w.left := rfl

@[simp] theorem visit_state (leaf : Nat) (w : Walk σ) : (w.visit leaf).state = w.state := rfl

@[simp] theorem andThen_visited (w : Walk σ) (next : Nat → σ → Walk σ) :
    (w.andThen next).visited = w.visited ++ (next w.left w.state).visited := rfl

@[simp] theorem andThen_left (w : Walk σ) (next : Nat → σ → Walk σ) :
    (w.andThen next).left = (next w.left w.state).left := rfl

@[simp] theorem andThen_state (w : Walk σ) (next : Nat → σ → Walk σ) :
    (w.andThen next).state = (next w.left w.state).state := rfl

theorem repeatWhile_zero (test : σ → Bool × σ) (pass : Nat → σ → Walk σ) (s : σ) :
    repeatWhile test pass 0 s = ⟨[], 0, s⟩ := by
  simp [repeatWhile]

theorem repeatWhile_of_false {test : σ → Bool × σ} {s t : σ} (h : test s = (false, t))
    (pass : Nat → σ → Walk σ) {budget : Nat} (hb : 0 < budget) :
    repeatWhile test pass budget s = ⟨[], budget, t⟩ := by
  rw [repeatWhile, if_neg (Nat.ne_of_gt hb), h]

/-- A pass that pays for an attempt is followed by the rest of the loop. -/
theorem repeatWhile_of_lt {test : σ → Bool × σ} {s t : σ} (h : test s = (true, t))
    {pass : Nat → σ → Walk σ} {budget : Nat} (hp : (pass budget t).left < budget) :
    repeatWhile test pass budget s = (pass budget t).andThen (repeatWhile test pass) := by
  rw [repeatWhile, if_neg (by omega), h]
  simp only [hp, if_true]
  rfl

/-- A pass that pays for nothing is the last. -/
theorem repeatWhile_of_not_lt {test : σ → Bool × σ} {s t : σ} (h : test s = (true, t))
    {pass : Nat → σ → Walk σ} {budget : Nat} (hb : 0 < budget)
    (hp : ¬ (pass budget t).left < budget) :
    repeatWhile test pass budget s = pass budget t := by
  rw [repeatWhile, if_neg (Nat.ne_of_gt hb), h]
  simp only [hp, if_false]

end Walk

variable {σ : Type} [World σ]

mutual

/-- Runs a program and breaks off right after `budget` attempts. -/
def Program.walk : Program → (budget : Nat) → σ → Walk σ
  | .act _, 0, s => ⟨[], 0, s⟩
  | .act action, budget + 1, s => ⟨[1], budget, (perform action s).2⟩
  | .seq body, budget, s => Program.walkIn body budget s
  | .branch test thenPart elsePart, budget, s =>
    if budget = 0 then ⟨[], 0, s⟩
    else match test.evaluate s with
      | (true, s) => thenPart.walk budget s
      | (false, s) => (elsePart.walk budget s).shift thenPart.stepCount
  | .loop test body, budget, s => Walk.repeatWhile test.evaluate body.walk budget s

/-- Runs programs one after another and breaks off right after `budget` attempts. -/
def Program.walkIn : List Program → (budget : Nat) → σ → Walk σ
  | [], budget, s => ⟨[], budget, s⟩
  | p :: ps, budget, s =>
    (p.walk budget s).andThen fun budget s => (Program.walkIn ps budget s).shift p.stepCount

end

/-! ### The budget -/

mutual

/-- Without a budget nothing happens, not even a reading. -/
theorem Program.walk_zero : ∀ (p : Program) (s : σ), p.walk 0 s = ⟨[], 0, s⟩
  | .act _, _ => rfl
  | .seq body, s => Program.walkIn_zero body s
  | .branch _ _ _, _ => by simp [Program.walk]
  | .loop test body, s => Walk.repeatWhile_zero test.evaluate body.walk s

theorem Program.walkIn_zero : ∀ (ps : List Program) (s : σ), Program.walkIn ps 0 s = ⟨[], 0, s⟩
  | [], _ => rfl
  | p :: ps, s => by
      simp [Program.walkIn, p.walk_zero s, Program.walkIn_zero ps s, Walk.andThen, Walk.shift]

end

omit [World σ] in
theorem Walk.repeatWhile_visited_add_left (test : σ → Bool × σ) {pass : Nat → σ → Walk σ}
    (h : ∀ budget s, (pass budget s).visited.length + (pass budget s).left = budget)
    (budget : Nat) (s : σ) :
    (repeatWhile test pass budget s).visited.length + (repeatWhile test pass budget s).left =
      budget := by
  induction budget using Nat.strongRecOn generalizing s with
  | ind budget ih =>
      rcases Nat.eq_zero_or_pos budget with rfl | hb
      · simp [repeatWhile_zero]
      · rcases ht : test s with ⟨value, t⟩
        cases value with
        | false => simp [repeatWhile_of_false ht pass hb]
        | true =>
            have spent := h budget t
            by_cases hp : (pass budget t).left < budget
            · have rest := ih _ hp (pass budget t).state
              rw [repeatWhile_of_lt ht hp]
              simp only [andThen_visited, andThen_left, List.length_append]
              omega
            · rwa [repeatWhile_of_not_lt ht hb hp]

mutual

/-- Every attempt is paid from the budget. -/
theorem Program.visited_add_left : ∀ (p : Program) (budget : Nat) (s : σ),
    (p.walk budget s).visited.length + (p.walk budget s).left = budget
  | .act _, 0, _ => rfl
  | .act _, budget + 1, _ => Nat.add_comm 1 budget
  | .seq body, budget, s => Program.visitedIn_add_left body budget s
  | .branch test thenPart elsePart, budget, s => by
      rcases Nat.eq_zero_or_pos budget with rfl | hb
      · simp [Program.walk]
      · simp only [Program.walk, Nat.ne_of_gt hb, if_false]
        obtain ⟨value, t⟩ := test.evaluate s
        cases value with
        | true => exact thenPart.visited_add_left budget t
        | false => simpa using elsePart.visited_add_left budget t
  | .loop test body, budget, s =>
      Walk.repeatWhile_visited_add_left test.evaluate
        (fun budget s => body.visited_add_left budget s) budget s

theorem Program.visitedIn_add_left : ∀ (ps : List Program) (budget : Nat) (s : σ),
    (Program.walkIn ps budget s).visited.length + (Program.walkIn ps budget s).left = budget
  | [], budget, _ => Nat.zero_add budget
  | p :: ps, budget, s => by
      have first := p.visited_add_left budget s
      have rest := Program.visitedIn_add_left ps (p.walk budget s).left (p.walk budget s).state
      simp only [Program.walkIn, Walk.andThen_visited, Walk.andThen_left, Walk.shift_visited,
        Walk.shift_left, List.length_append, List.length_map]
      omega

end

/-! ### Walks and full runs -/

section Loops

variable {σ : Type} {test : σ → Bool × σ} {pass : Nat → σ → Walk σ} {once : σ → Option (Nat × σ)}

/-- What a loop has attempted before only adds to its count. -/
theorem repeatWhile_eq_map (passes before : Nat) (s : σ) :
    repeatWhile test once passes before s =
      (repeatWhile test once passes 0 s).map (Prod.map (before + ·) id) := by
  induction passes generalizing before s with
  | zero => rfl
  | succ passes ih =>
      simp only [repeatWhile]
      rcases test s with ⟨_ | _, t⟩
      · rfl
      · rcases ho : once t with _ | ⟨_ | count, u⟩
        · simp [ho]
        · simp [ho]
        · simp only [ho]
          rw [ih (before + (count + 1)), ih (0 + (count + 1)), Option.map_map]
          congr 1
          funext x
          exact Prod.ext (by simp only [Prod.map_fst, Function.comp_apply]; omega) rfl

/-- A loop that goes on after a pass: its count is that of the pass and that of the rest. -/
theorem exists_of_repeatWhile_add {passes count n : Nat} {s t : σ}
    (h : repeatWhile test once passes (0 + (count + 1)) s = some (n, t)) :
    ∃ rest, n = count + 1 + rest ∧ repeatWhile test once passes 0 s = some (rest, t) := by
  rw [repeatWhile_eq_map, Option.map_eq_some_iff] at h
  obtain ⟨⟨rest, u⟩, hrest, heq⟩ := h
  simp only [Prod.map_apply, id_eq, Prod.mk.injEq] at heq
  obtain ⟨hn, rfl⟩ := heq
  exact ⟨rest, by omega, hrest⟩

/-- A loop that ends within its bound ends in a walk with a budget it does not use up. -/
theorem Walk.repeatWhile_of_run
    (h : ∀ {n : Nat} {s t : σ}, once s = some (n, t) → ∀ {budget : Nat}, n < budget →
      (pass budget s).left = budget - n ∧ (pass budget s).state = t)
    {passes n : Nat} {s t : σ} (run : RobotControl.repeatWhile test once passes 0 s = some (n, t))
    {budget : Nat} (hb : n < budget) :
    (repeatWhile test pass budget s).left = budget - n ∧
      (repeatWhile test pass budget s).state = t := by
  induction passes generalizing n s budget with
  | zero => simp [RobotControl.repeatWhile] at run
  | succ passes ih =>
      rw [RobotControl.repeatWhile] at run
      rcases ht : test s with ⟨_ | _, u⟩
      · simp only [ht, Option.some.injEq, Prod.mk.injEq] at run
        obtain ⟨rfl, rfl⟩ := run
        rw [repeatWhile_of_false ht pass hb]
        exact ⟨rfl, rfl⟩
      · rcases ho : once u with _ | ⟨_ | count, v⟩
        · simp [ht, ho] at run
        · simp only [ht, ho, Option.some.injEq, Prod.mk.injEq] at run
          obtain ⟨rfl, rfl⟩ := run
          obtain ⟨left, state⟩ := h ho hb
          rw [repeatWhile_of_not_lt ht hb (by omega)]
          exact ⟨left, state⟩
        · simp only [ht, ho] at run
          obtain ⟨rest, rfl, hrest⟩ := exists_of_repeatWhile_add run
          obtain ⟨left, state⟩ := h ho (show count + 1 < budget by omega)
          rw [repeatWhile_of_lt ht (by omega), andThen_left, andThen_state, left, state]
          obtain ⟨left', state'⟩ := ih hrest (show rest < budget - (count + 1) by omega)
          exact ⟨by omega, state'⟩

/-- A loop that ends in a walk ends within as many passes as the walk had attempts. -/
theorem Walk.run_of_repeatWhile
    (spent : ∀ budget s, (pass budget s).visited.length + (pass budget s).left = budget)
    {bound : Nat} (h : ∀ {budget : Nat} {s : σ}, budget ≤ bound → 0 < (pass budget s).left →
      once s = some (budget - (pass budget s).left, (pass budget s).state))
    {passes budget : Nat} {s : σ} (bounded : budget ≤ bound) (hb : budget ≤ passes)
    (ends : 0 < (repeatWhile test pass budget s).left) :
    RobotControl.repeatWhile test once passes 0 s =
      some (budget - (repeatWhile test pass budget s).left,
        (repeatWhile test pass budget s).state) := by
  induction passes generalizing budget s with
  | zero =>
      obtain rfl : budget = 0 := by omega
      simp [repeatWhile_zero] at ends
  | succ passes ih =>
      rcases Nat.eq_zero_or_pos budget with rfl | pos
      · simp [repeatWhile_zero] at ends
      · rw [RobotControl.repeatWhile]
        rcases ht : test s with ⟨_ | _, u⟩
        · simp [repeatWhile_of_false ht pass pos]
        · by_cases hp : (pass budget u).left < budget
          · rw [repeatWhile_of_lt ht hp, andThen_left] at ends
            have goesOn : 0 < (pass budget u).left := by
              rw [Nat.pos_iff_ne_zero]
              intro h0
              simp [h0, repeatWhile_zero] at ends
            have rest := ih (by omega) (by omega) ends
            have spent := repeatWhile_visited_add_left test spent (pass budget u).left
              (pass budget u).state
            obtain ⟨count, hcount⟩ : ∃ count, budget - (pass budget u).left = count + 1 :=
              ⟨budget - (pass budget u).left - 1, by omega⟩
            rw [repeatWhile_of_lt ht hp]
            simp only [h bounded goesOn, hcount]
            rw [repeatWhile_eq_map, rest]
            simp only [Option.map_some, Prod.map_apply, id_eq, andThen_left, andThen_state]
            exact congrArg some (Prod.ext (by simp only; omega) rfl)
          · rw [repeatWhile_of_not_lt ht pos hp] at ends ⊢
            have := spent budget u
            simp [h bounded ends, show budget - (pass budget u).left = 0 by omega]

end Loops

mutual

/-- A full run that attempts less than the budget is not interrupted. -/
theorem Program.walk_of_run {passes : Nat} : ∀ (p : Program) {n : Nat} {s t : σ},
    p.run passes s = some (n, t) → ∀ {budget : Nat}, n < budget →
      (p.walk budget s).left = budget - n ∧ (p.walk budget s).state = t
  | .act action, n, s, t, run, budget, hb => by
      simp only [Program.run, Option.some.injEq, Prod.mk.injEq] at run
      obtain ⟨rfl, rfl⟩ := run
      obtain ⟨budget, rfl⟩ : ∃ b, budget = b + 1 := ⟨budget - 1, by omega⟩
      exact ⟨rfl, rfl⟩
  | .seq body, _, _, _, run, _, hb => Program.walkIn_of_runAll body run hb
  | .branch test thenPart elsePart, n, s, t, run, budget, hb => by
      simp only [Program.run] at run
      simp only [Program.walk, show budget ≠ 0 by omega, if_false]
      rcases ht : test.evaluate s with ⟨_ | _, u⟩
      · simp only [ht] at run
        exact elsePart.walk_of_run run hb
      · simp only [ht] at run
        exact thenPart.walk_of_run run hb
  | .loop _ body, _, _, _, run, _, hb =>
      Walk.repeatWhile_of_run (fun once _ paid => body.walk_of_run once paid) run hb

theorem Program.walkIn_of_runAll {passes : Nat} : ∀ (ps : List Program) {n : Nat} {s t : σ},
    Program.runAll passes ps s = some (n, t) → ∀ {budget : Nat}, n < budget →
      (Program.walkIn ps budget s).left = budget - n ∧ (Program.walkIn ps budget s).state = t
  | [], n, s, t, run, budget, _ => by
      simp only [Program.runAll, Option.some.injEq, Prod.mk.injEq] at run
      obtain ⟨rfl, rfl⟩ := run
      exact ⟨rfl, rfl⟩
  | p :: ps, n, s, t, run, budget, hb => by
      simp only [Program.runAll] at run
      rcases hp : p.run passes s with _ | ⟨first, u⟩
      · simp [hp] at run
      · rcases hps : Program.runAll passes ps u with _ | ⟨rest, v⟩
        · simp [hp, hps] at run
        · simp only [hp, hps, Option.some.injEq, Prod.mk.injEq] at run
          obtain ⟨rfl, rfl⟩ := run
          obtain ⟨left, state⟩ := p.walk_of_run hp (show first < budget by omega)
          obtain ⟨left', state'⟩ := Program.walkIn_of_runAll ps hps
            (show rest < budget - first by omega)
          simp only [Program.walkIn, Walk.andThen_left, Walk.andThen_state, Walk.shift_left,
            Walk.shift_state, left, state]
          exact ⟨by omega, state'⟩

end

mutual

/-- A walk with attempts left is a full run, and no loop of it needs more passes than the walk
had attempts. -/
theorem Program.run_of_walk {passes : Nat} : ∀ (p : Program) {budget : Nat} {s : σ},
    budget ≤ passes → 0 < (p.walk budget s).left →
      p.run passes s = some (budget - (p.walk budget s).left, (p.walk budget s).state)
  | .act _, 0, _, _, ends => absurd ends (Nat.lt_irrefl 0)
  | .act _, budget + 1, _, _, _ => by simp [Program.run, Program.walk]
  | .seq body, _, _, hb, ends => Program.runAll_of_walkIn body hb ends
  | .branch test thenPart elsePart, budget, s, hb, ends => by
      rcases Nat.eq_zero_or_pos budget with rfl | pos
      · simp [Program.walk] at ends
      · simp only [Program.walk, Program.run, Nat.ne_of_gt pos, if_false] at ends ⊢
        rcases ht : test.evaluate s with ⟨_ | _, u⟩
        · simp only [ht, Walk.shift_left] at ends
          exact elsePart.run_of_walk hb ends
        · simp only [ht] at ends
          exact thenPart.run_of_walk hb ends
  | .loop _ body, _, _, hb, ends =>
      Walk.run_of_repeatWhile body.visited_add_left
        (fun bounded once => body.run_of_walk bounded once) hb hb ends

theorem Program.runAll_of_walkIn {passes : Nat} : ∀ (ps : List Program) {budget : Nat} {s : σ},
    budget ≤ passes → 0 < (Program.walkIn ps budget s).left →
      Program.runAll passes ps s =
        some (budget - (Program.walkIn ps budget s).left, (Program.walkIn ps budget s).state)
  | [], _, _, _, _ => by simp [Program.runAll, Program.walkIn]
  | p :: ps, budget, s, hb, ends => by
      have spent := p.visited_add_left budget s
      have spent' := Program.visitedIn_add_left ps (p.walk budget s).left (p.walk budget s).state
      simp only [Program.walkIn, Walk.andThen_left, Walk.shift_left] at ends
      have first := p.run_of_walk hb (show 0 < (p.walk budget s).left by omega)
      have rest := Program.runAll_of_walkIn ps (show (p.walk budget s).left ≤ passes by omega) ends
      simp only [Program.runAll, first, rest, Program.walkIn, Walk.andThen_left, Walk.andThen_state,
        Walk.shift_left, Walk.shift_state]
      exact congrArg some (Prod.ext (by simp only; omega) rfl)

end

/-- **A full run is a walk that is not interrupted.** -/
theorem Program.exists_run_iff {p : Program} {n : Nat} {s t : σ} :
    (∃ passes, p.run passes s = some (n, t)) ↔
      (p.walk (n + 1) s).left = 1 ∧ (p.walk (n + 1) s).state = t := by
  constructor
  · rintro ⟨passes, run⟩
    obtain ⟨left, state⟩ := p.walk_of_run run (Nat.lt_add_one n)
    exact ⟨by omega, state⟩
  · rintro ⟨left, rfl⟩
    have run := p.run_of_walk (Nat.le_refl (n + 1)) (show 0 < (p.walk (n + 1) s).left by omega)
    exact ⟨n + 1, by simpa [left] using run⟩

/-- A run that does not end uses up every budget. -/
theorem Program.left_eq_zero_of_not_run {p : Program} {s : σ} (h : ∀ passes, p.run passes s = none)
    (budget : Nat) : (p.walk budget s).left = 0 := by
  cases left : (p.walk budget s).left with
  | zero => rfl
  | succ rest =>
      have pos : 0 < (p.walk budget s).left := by omega
      have run := p.run_of_walk (Nat.le_refl budget) pos
      rw [h budget] at run
      cases run

end RobotControl
