import Mathlib.Data.List.Perm.Subperm
import Mathlib.Logic.Basic
import RobotControl.Proofs.Execution.Operating
import RobotControl.World.Scripted

/-!
Steps that go forward.

The leaves of a part of a program have consecutive numbers. A loop is the only way back to a smaller
number, and the two sides of a branch are never mixed, because its test is not consulted again once
the cursor is on one of them. The world has no say in this.

* `Program.parts`: the parts of a program, each with the number of leaves before it.
* `Program.leaf?_of_mem_parts`: the leaves of a part are leaves of the program.
* `Program.orderly_next`: a step ends in a loop that it began in, or it goes forward and stays on its
  side of every branch.
* `Program.ahead_of_next`: without loops it always goes forward, from any cursor.
* `Runner.outcomes`: what steps come to when each of them finds another world.
* `Program.next_goes_forward`: all of it together. Without loops no leaf is delivered twice and no
  runner delivers leaves of both sides of a branch.
-/

namespace RobotControl

/-! ### Parts and the leaves they cover -/

mutual

/-- The parts of a program, the whole among them, in the order in which they are written. -/
def Program.parts : Program → List Task
  | .act action => [⟨0, .act action⟩]
  | .seq body => ⟨0, .seq body⟩ :: Program.partsOf body
  | .branch test thenPart elsePart => ⟨0, .branch test thenPart elsePart⟩ ::
      (thenPart.parts ++ elsePart.parts.map (Task.shift thenPart.stepCount))
  | .loop test body => ⟨0, .loop test body⟩ :: body.parts

def Program.partsOf : List Program → List Task
  | [] => []
  | p :: ps => p.parts ++ (Program.partsOf ps).map (Task.shift p.stepCount)

end

namespace Task

/-- The leaf with a number belongs to the part. -/
def Covers (t : Task) (leaf : Nat) : Prop :=
  t.below < leaf ∧ leaf ≤ t.below + t.program.stepCount

instance (t : Task) (leaf : Nat) : Decidable (t.Covers leaf) :=
  inferInstanceAs (Decidable (_ ∧ _))

def isLoop (t : Task) : Bool :=
  match t.program with
  | .loop _ _ => true
  | _ => false

/-- The part is a branch and has the two leaves on different sides. -/
def Divides (t : Task) (i j : Nat) : Prop :=
  match t.program with
  | .branch _ thenPart elsePart =>
    (Covers ⟨t.below, thenPart⟩ i ∧ Covers ⟨t.below + thenPart.stepCount, elsePart⟩ j) ∨
      (Covers ⟨t.below, thenPart⟩ j ∧ Covers ⟨t.below + thenPart.stepCount, elsePart⟩ i)
  | _ => False

instance (t : Task) (i j : Nat) : Decidable (t.Divides i j) :=
  match t with
  | ⟨_, .branch _ _ _⟩ => inferInstanceAs (Decidable (_ ∨ _))
  | ⟨_, .act _⟩ | ⟨_, .seq _⟩ | ⟨_, .loop _ _⟩ => inferInstanceAs (Decidable False)

/-- A loop among the parts has both leaves. -/
def InOneLoop (parts : List Task) (i j : Nat) : Prop :=
  ∃ t ∈ parts, t.isLoop ∧ t.Covers i ∧ t.Covers j

/-- A branch among the parts has the two leaves on different sides. -/
def Divided (parts : List Task) (i j : Nat) : Prop :=
  ∃ t ∈ parts, t.Divides i j

instance (parts : List Task) (i j : Nat) : Decidable (InOneLoop parts i j) :=
  inferInstanceAs (Decidable (∃ t ∈ parts, _))

instance (parts : List Task) (i j : Nat) : Decidable (Divided parts i j) :=
  inferInstanceAs (Decidable (∃ t ∈ parts, _))

@[simp] theorem covers_shift {t : Task} {below leaf : Nat} :
    (t.shift below).Covers (below + leaf) ↔ t.Covers leaf := by
  simp only [Covers, shift]
  omega

@[simp] theorem isLoop_shift (t : Task) (below : Nat) : (t.shift below).isLoop = t.isLoop := rfl

@[simp] theorem divides_shift {t : Task} {below i j : Nat} :
    (t.shift below).Divides (below + i) (below + j) ↔ t.Divides i j := by
  obtain ⟨before, p⟩ := t
  cases p with
  | branch test thenPart elsePart =>
      simp only [Divides, Covers, shift]
      omega
  | _ => rfl

/-- A part covers the leaves that it divides. -/
theorem Divides.covers {t : Task} {i j : Nat} (h : t.Divides i j) : t.Covers i ∧ t.Covers j := by
  obtain ⟨below, p⟩ := t
  cases p with
  | branch test thenPart elsePart =>
      simp only [Divides, Covers, Program.stepCount] at h ⊢
      omega
  | _ => exact h.elim

/-- Of two leaves on different sides a leaf between them is on a side other than one of them. -/
theorem Divides.between {t : Task} {i j k : Nat} (h : t.Divides i k) (hij : i < j) (hjk : j < k) :
    t.Divides i j ∨ t.Divides j k := by
  obtain ⟨below, p⟩ := t
  cases p with
  | branch test thenPart elsePart =>
      simp only [Divides, Covers] at h ⊢
      omega
  | _ => exact h.elim

variable {xs ys : List Task} {below i j : Nat}

theorem inOneLoop_append :
    InOneLoop (xs ++ ys) i j ↔ InOneLoop xs i j ∨ InOneLoop ys i j := by
  simp [InOneLoop, or_and_right, exists_or]

theorem divided_append : Divided (xs ++ ys) i j ↔ Divided xs i j ∨ Divided ys i j := by
  simp [Divided, or_and_right, exists_or]

theorem divided_cons {t : Task} : Divided (t :: ys) i j ↔ t.Divides i j ∨ Divided ys i j := by
  simp [Divided]

theorem inOneLoop_map_shift :
    InOneLoop (xs.map (shift below)) (below + i) (below + j) ↔ InOneLoop xs i j := by
  simp [InOneLoop]

theorem divided_map_shift :
    Divided (xs.map (shift below)) (below + i) (below + j) ↔ Divided xs i j := by
  simp [Divided]

/-- Leaves of shifted parts are behind those before them. -/
theorem Divided.lt_of_shift (h : Divided (xs.map (shift below)) i j) : below < i ∧ below < j := by
  obtain ⟨t, ht, divides⟩ := h
  obtain ⟨u, -, rfl⟩ := List.mem_map.mp ht
  obtain ⟨hi, hj⟩ := divides.covers
  simp only [Covers, shift] at hi hj
  omega

end Task

namespace Program

mutual

/-- **A part has the leaves of the program**, under the numbers behind those before it. -/
theorem leaf?_of_mem_parts : ∀ (p : Program) {t : Task} {step : Nat} {action : Action},
    t ∈ p.parts → t.program.leaf? step = some action → p.leaf? (t.below + step) = some action
  | .act only, t, step, action, ht, h => by
      obtain rfl : t = ⟨0, .act only⟩ := by simpa [parts] using ht
      simpa using h
  | .seq body, t, step, action, ht, h => by
      rcases List.mem_cons.mp ht with rfl | ht
      · simpa using h
      · exact leafIn?_of_mem_partsOf body ht h
  | .branch test thenPart elsePart, t, step, action, ht, h => by
      rw [parts, List.mem_cons, List.mem_append, List.mem_map] at ht
      rcases ht with rfl | ht | ⟨u, hu, rfl⟩
      · simpa using h
      · have found := thenPart.leaf?_of_mem_parts ht h
        rwa [leaf?_branch_left (bounds_of_leaf? found).2]
      · have found := elsePart.leaf?_of_mem_parts hu h
        rw [Task.shift, Nat.add_assoc]
        rwa [leaf?_branch_right test thenPart (bounds_of_leaf? found).1]
  | .loop test body, t, step, action, ht, h => by
      rcases List.mem_cons.mp ht with rfl | ht
      · simpa using h
      · exact body.leaf?_of_mem_parts ht h

theorem leafIn?_of_mem_partsOf : ∀ (ps : List Program) {t : Task} {step : Nat} {action : Action},
    t ∈ partsOf ps → t.program.leaf? step = some action →
      leafIn? ps (t.below + step) = some action
  | [], _, _, _, ht, _ => by cases ht
  | p :: ps, t, step, action, ht, h => by
      rw [partsOf, List.mem_append, List.mem_map] at ht
      rcases ht with ht | ⟨u, hu, rfl⟩
      · have found := p.leaf?_of_mem_parts ht h
        rwa [leafIn?_cons_left (bounds_of_leaf? found).2]
      · have found := leafIn?_of_mem_partsOf ps hu h
        rw [Task.shift, Nat.add_assoc]
        rwa [leafIn?_cons_right p (bounds_of_leafIn? found).1]

end

/-- Parts cover leaves of the program only. -/
theorem bounds_of_covers {p : Program} {t : Task} (ht : t ∈ p.parts) {leaf : Nat}
    (h : t.Covers leaf) : 1 ≤ leaf ∧ leaf ≤ p.stepCount := by
  simp only [Task.Covers] at h
  obtain ⟨step, rfl⟩ : ∃ step, leaf = t.below + step := ⟨leaf - t.below, by omega⟩
  obtain ⟨action, found⟩ := Option.isSome_iff_exists.mp
    (leaf?_isSome_iff.mpr ⟨by omega, by omega⟩ : (t.program.leaf? step).isSome)
  exact bounds_of_leaf? (p.leaf?_of_mem_parts ht found)

/-- Only leaves of the program are divided. -/
theorem bounds_of_divided {p : Program} {i j : Nat} (h : Task.Divided p.parts i j) :
    (1 ≤ i ∧ i ≤ p.stepCount) ∧ 1 ≤ j ∧ j ≤ p.stepCount := by
  obtain ⟨t, ht, divides⟩ := h
  exact ⟨bounds_of_covers ht divides.covers.1, bounds_of_covers ht divides.covers.2⟩

end Program

/-! ### Orderly steps -/

namespace Task

/-- A leaf comes behind another one, and no branch among the parts has them on different sides. -/
def Ahead (parts : List Task) (last step : Nat) : Prop :=
  last < step ∧ ¬ Divided parts last step

/-- A step from one leaf to another stays in a loop, or it goes ahead. -/
def Orderly (parts : List Task) (last step : Nat) : Prop :=
  InOneLoop parts last step ∨ Ahead parts last step

variable {xs ys : List Task} {below last step : Nat}

/-- A step within the first parts does not touch those behind them. -/
theorem Orderly.append_left (h : Orderly xs last step) (hstep : step ≤ below) :
    Orderly (xs ++ ys.map (shift below)) last step := by
  rcases h with inLoop | ⟨forward, together⟩
  · exact .inl (inOneLoop_append.mpr (.inl inLoop))
  · refine .inr ⟨forward, ?_⟩
    intro divided
    rcases divided_append.mp divided with divided | divided
    · exact together divided
    · have := divided.lt_of_shift.2
      omega

/-- A step behind the first parts does not touch them. -/
theorem Orderly.append_right (h : Orderly ys last step)
    (hxs : ∀ i j, Divided xs i j → i ≤ below) (hlast : 1 ≤ last) :
    Orderly (xs ++ ys.map (shift below)) (below + last) (below + step) := by
  rcases h with inLoop | ⟨forward, together⟩
  · exact .inl (inOneLoop_append.mpr (.inr (inOneLoop_map_shift.mpr inLoop)))
  · refine .inr ⟨by omega, ?_⟩
    intro divided
    rcases divided_append.mp divided with divided | divided
    · have := hxs _ _ divided
      omega
    · exact together (divided_map_shift.mp divided)

/-- A step from the first parts to those behind them divides neither. -/
theorem Orderly.append_across (hxs : ∀ i j, Divided xs i j → j ≤ below) (hlast : last ≤ below)
    (hstep : below < step) : Orderly (xs ++ ys.map (shift below)) last step := by
  refine .inr ⟨by omega, ?_⟩
  intro divided
  rcases divided_append.mp divided with divided | divided
  · have := hxs _ _ divided
    omega
  · have := divided.lt_of_shift.1
    omega

/-- Of three leaves in order, the last is ahead of the first if it is ahead of the second and that one
of the first. -/
theorem Ahead.trans {i j k : Nat} (first : Ahead xs i j) (second : Ahead xs j k) : Ahead xs i k := by
  refine ⟨Nat.lt_trans first.1 second.1, ?_⟩
  rintro ⟨t, ht, divides⟩
  rcases divides.between first.1 second.1 with divides | divides
  · exact first.2 ⟨t, ht, divides⟩
  · exact second.2 ⟨t, ht, divides⟩

instance : Trans (Ahead xs) (Ahead xs) (Ahead xs) :=
  ⟨Ahead.trans⟩

/-- The whole is one more part. A step is orderly in it if it is orderly in its parts and the whole
has both leaves on one side. -/
theorem Orderly.cons {t : Task} (h : Orderly ys last step) (ht : ¬ t.Divides last step) :
    Orderly (t :: ys) last step := by
  rcases h with ⟨u, hu, inLoop⟩ | ⟨forward, together⟩
  · exact .inl ⟨u, List.mem_cons_of_mem t hu, inLoop⟩
  · refine .inr ⟨forward, ?_⟩
    intro divided
    exact (divided_cons.mp divided).elim ht together

end Task

open RobotControl.Task (Orderly)

section Steps

variable {σ : Type} [World σ]

mutual

/-- **A step ends in a loop that it began in, or it goes forward and stays on its side of every
branch.** -/
theorem Program.orderly_next : ∀ (p : Program) {last step : Nat} {s t : σ}, 1 ≤ last →
    last ≤ p.stepCount → p.next last s = (some step, t) → Orderly p.parts last step
  | .act _, last, step, s, t, hlow, _, h => by
      rw [Program.next, if_neg (by omega)] at h
      cases h
  | .seq body, last, step, s, t, hlow, hhigh, h =>
      (Program.orderly_nextIn body hlow hhigh h).cons id
  | .branch test thenPart elsePart, last, step, s, t, hlow, hhigh, h => by
      rcases Program.next_branch_cases h with ⟨hl, u, first⟩ | ⟨hl, rest, u, rfl, second⟩
      · obtain ⟨action, ha⟩ := thenPart.exists_leaf?_of_next first
        have hstep := (Program.bounds_of_leaf? ha).2
        refine ((thenPart.orderly_next hlow hl first).append_left hstep).cons ?_
        simp only [Task.Divides, Task.Covers]
        omega
      · obtain ⟨action, ha⟩ := elsePart.exists_leaf?_of_next second
        have hrest := (Program.bounds_of_leaf? ha).1
        have hpos : 1 ≤ last - thenPart.stepCount := by omega
        have hwithin : last - thenPart.stepCount ≤ elsePart.stepCount := by
          simp only [Program.stepCount] at hhigh
          omega
        obtain ⟨before, rfl⟩ : ∃ before, last = thenPart.stepCount + before :=
          ⟨last - thenPart.stepCount, by omega⟩
        rw [Nat.add_sub_cancel_left] at hpos hwithin second
        refine ((elsePart.orderly_next hpos hwithin second).append_right ?_ hpos).cons ?_
        · intro i j divided
          exact (Program.bounds_of_divided divided).1.2
        · simp only [Task.Divides, Task.Covers]
          omega
  | .loop test body, last, step, s, t, hlow, hhigh, h => by
      -- Wherever the next pass begins, the loop has both leaves.
      obtain ⟨action, ha⟩ := (Program.loop test body).exists_leaf?_of_next h
      have bounds := Program.bounds_of_leaf? ha
      refine .inl ⟨_, List.mem_cons_self, rfl, ?_⟩
      simp only [Task.Covers]
      omega

theorem Program.orderly_nextIn : ∀ (ps : List Program) {last step : Nat} {s t : σ}, 1 ≤ last →
    last ≤ Program.stepCountOf ps → Program.nextIn ps last s = (some step, t) →
      Orderly (Program.partsOf ps) last step
  | [], _, _, _, _, _, _, h => by cases h
  | p :: ps, last, step, s, t, hlow, hhigh, h => by
      rcases Program.nextIn_cons_cases h with ⟨hl, first⟩ | ⟨rest, u, rfl, later⟩
      · obtain ⟨action, ha⟩ := p.exists_leaf?_of_next first
        exact (p.orderly_next hlow hl first).append_left (Program.bounds_of_leaf? ha).2
      · obtain ⟨action, ha⟩ := Program.exists_leafIn?_of_nextIn ps later
        have hrest := (Program.bounds_of_leafIn? ha).1
        by_cases hl : last ≤ p.stepCount
        · refine Orderly.append_across ?_ hl (by omega)
          intro i j divided
          exact (Program.bounds_of_divided divided).2.2
        · have hpos : 1 ≤ last - p.stepCount := by omega
          have hwithin : last - p.stepCount ≤ Program.stepCountOf ps := by
            simp only [Program.stepCountOf] at hhigh
            omega
          obtain ⟨before, rfl⟩ : ∃ before, last = p.stepCount + before :=
            ⟨last - p.stepCount, by omega⟩
          rw [Nat.add_sub_cancel_left] at hpos hwithin later
          refine (Program.orderly_nextIn ps hpos hwithin later).append_right ?_ hpos
          intro i j divided
          exact (Program.bounds_of_divided divided).1.2

end

/-! ### Programs without loops -/

omit [World σ]

namespace Task

/-- None of the parts is a loop. -/
def Loopless (parts : List Task) : Prop :=
  ∀ t ∈ parts, t.isLoop = false

instance (parts : List Task) : Decidable (Loopless parts) :=
  inferInstanceAs (Decidable (∀ t ∈ parts, _))

theorem loopless_append {xs ys : List Task} :
    Loopless (xs ++ ys) ↔ Loopless xs ∧ Loopless ys :=
  List.forall_mem_append

theorem loopless_map_shift {xs : List Task} {below : Nat} :
    Loopless (xs.map (shift below)) ↔ Loopless xs := by
  simp [Loopless]

end Task

mutual

/-- Without loops nothing follows a number behind the last leaf. -/
theorem Program.le_stepCount_of_next [World σ] : ∀ (p : Program) {last step : Nat} {s t : σ},
    Task.Loopless p.parts → p.next last s = (some step, t) → last ≤ p.stepCount
  | .act _, last, step, s, t, _, h => by
      rw [Program.next] at h
      by_cases h0 : last = 0
      · exact h0 ▸ Nat.zero_le _
      · rw [if_neg h0] at h
        cases h
  | .seq body, last, step, s, t, loopless, h =>
      Program.le_stepCountOf_of_nextIn body (List.forall_mem_cons.mp loopless).2 h
  | .branch test thenPart elsePart, last, step, s, t, loopless, h => by
      obtain ⟨first, second⟩ := Task.loopless_append.mp (List.forall_mem_cons.mp loopless).2
      simp only [Program.stepCount]
      rcases Program.next_branch_cases h with ⟨hl, -⟩ | ⟨-, rest, u, -, hn⟩
      · omega
      · have := elsePart.le_stepCount_of_next (Task.loopless_map_shift.mp second) hn
        omega
  | .loop test body, last, step, s, t, loopless, _ => by
      have := (List.forall_mem_cons.mp loopless).1
      cases this

theorem Program.le_stepCountOf_of_nextIn [World σ] : ∀ (ps : List Program) {last step : Nat}
    {s t : σ}, Task.Loopless (Program.partsOf ps) → Program.nextIn ps last s = (some step, t) →
      last ≤ Program.stepCountOf ps
  | [], _, _, _, _, _, h => by cases h
  | p :: ps, last, step, s, t, loopless, h => by
      obtain ⟨-, others⟩ := Task.loopless_append.mp loopless
      simp only [Program.stepCountOf]
      rcases Program.nextIn_cons_cases h with ⟨hl, -⟩ | ⟨rest, u, -, hn⟩
      · omega
      · have := Program.le_stepCountOf_of_nextIn ps (Task.loopless_map_shift.mp others) hn
        omega

end

variable [World σ]

/-- **Without loops every step goes ahead**, from any cursor. -/
theorem Program.ahead_of_next {p : Program} (loopless : Task.Loopless p.parts) {last step : Nat}
    {s t : σ} (h : p.next last s = (some step, t)) : Task.Ahead p.parts last step := by
  rcases Nat.eq_zero_or_pos last with rfl | pos
  · obtain ⟨action, ha⟩ := p.exists_leaf?_of_next h
    refine ⟨(Program.bounds_of_leaf? ha).1, ?_⟩
    intro divided
    exact absurd (Program.bounds_of_divided divided).1.1 (Nat.not_succ_le_zero 0)
  · rcases p.orderly_next pos (p.le_stepCount_of_next loopless h) h with inLoop | ahead
    · obtain ⟨u, hu, loop, -⟩ := inLoop
      rw [loopless u hu] at loop
      cases loop
    · exact ahead

end Steps

/-! ### Steps in changing worlds -/

/-- The number of the action that a step delivered. -/
def Step.index? : Step → Option Nat
  | .executed index _ => some index
  | .done => none

namespace Runner

variable {σ : Type} [World σ]

/-- What steps come to when each of them finds a world of its own, whatever the one before it has
left. -/
def outcomes : Runner → (worlds : List σ) → List Step
  | _, [] => []
  | r, s :: worlds => match r.step s with
    | .ok (outcome, r, _) => outcome :: outcomes r worlds
    | .error _ => []

/-- The numbers that such steps deliver. -/
def delivered (r : Runner) (worlds : List σ) : List Nat :=
  (r.outcomes worlds).filterMap Step.index?

/-- The first step is done or delivers what comes next. -/
theorem outcomes_cons (p : Program) (cursor : Nat) (s : σ) (worlds : List σ) :
    outcomes ⟨some p, cursor⟩ (s :: worlds) = .done :: outcomes ⟨some p, cursor⟩ worlds ∨
      ∃ index attempt t, p.next cursor s = (some index, t) ∧
        outcomes ⟨some p, cursor⟩ (s :: worlds) =
          .executed index attempt :: outcomes ⟨some p, index⟩ worlds := by
  rcases step_cases ⟨some p, cursor⟩ s with
    ⟨none, -⟩ | ⟨q, hq, ⟨t, -, done⟩ | ⟨index, t, action, hn, -, executed⟩⟩
  · cases none
  · cases hq
    exact .inl (by rw [outcomes, done])
  · cases hq
    exact .inr ⟨index, _, t, hn, by rw [outcomes, executed]⟩

/-- Every step is answered. -/
theorem length_outcomes (p : Program) (cursor : Nat) (worlds : List σ) :
    (outcomes ⟨some p, cursor⟩ worlds).length = worlds.length := by
  induction worlds generalizing cursor with
  | nil => rfl
  | cons s worlds ih =>
      rcases outcomes_cons p cursor s worlds with done | ⟨index, attempt, t, -, executed⟩
      · rw [done, List.length_cons, List.length_cons, ih]
      · rw [executed, List.length_cons, List.length_cons, ih]

/-- Without loops each delivered leaf is ahead of the one before it. -/
theorem isChain_delivered {p : Program} (loopless : Task.Loopless p.parts) (cursor : Nat)
    (worlds : List σ) :
    List.IsChain (Task.Ahead p.parts) (cursor :: delivered ⟨some p, cursor⟩ worlds) := by
  induction worlds generalizing cursor with
  | nil => exact List.IsChain.singleton cursor
  | cons s worlds ih =>
      rcases outcomes_cons p cursor s worlds with done | ⟨index, attempt, t, hn, executed⟩
      · rw [delivered, done]
        exact ih cursor
      · rw [delivered, executed]
        exact .cons_cons (Program.ahead_of_next loopless hn) (ih index)

/-- Only leaves are delivered. -/
theorem bounds_of_mem_delivered {p : Program} {cursor : Nat} {worlds : List σ} {index : Nat}
    (h : index ∈ delivered ⟨some p, cursor⟩ worlds) : 1 ≤ index ∧ index ≤ p.stepCount := by
  induction worlds generalizing cursor with
  | nil => cases h
  | cons s worlds ih =>
      rcases outcomes_cons p cursor s worlds with done | ⟨next, attempt, t, hn, executed⟩
      · simp only [delivered, done, List.filterMap_cons, Step.index?] at h
        exact ih h
      · simp only [delivered, executed, List.filterMap_cons, Step.index?, List.mem_cons] at h
        rcases h with rfl | h
        · obtain ⟨action, ha⟩ := p.exists_leaf?_of_next hn
          exact Program.bounds_of_leaf? ha
        · exact ih h

/-- No more steps are delivered than the program has, when they go ahead. -/
theorem length_delivered_le {p : Program} {cursor : Nat} {worlds : List σ}
    (ahead : (delivered ⟨some p, cursor⟩ worlds).Pairwise (Task.Ahead p.parts)) :
    (delivered ⟨some p, cursor⟩ worlds).length ≤ p.stepCount := by
  have distinct : (delivered ⟨some p, cursor⟩ worlds).Nodup :=
    ahead.imp fun h => Nat.ne_of_lt h.1
  have leaves : delivered ⟨some p, cursor⟩ worlds ⊆ List.range' 1 p.stepCount := by
    intro index h
    have := bounds_of_mem_delivered h
    rw [List.mem_range'_1]
    omega
  simpa using (List.subperm_of_subset distinct leaves).length_le

/-- Of more steps than are delivered one is done. -/
theorem done_mem_outcomes {p : Program} {cursor : Nat} {worlds : List σ}
    (h : (delivered ⟨some p, cursor⟩ worlds).length < worlds.length) :
    Step.done ∈ outcomes ⟨some p, cursor⟩ worlds := by
  by_contra absent
  have every : ∀ outcome ∈ outcomes ⟨some p, cursor⟩ worlds, (Step.index? outcome).isSome := by
    intro outcome hmem
    cases outcome with
    | executed index attempt => rfl
    | done => exact absurd hmem absent
  rw [delivered, List.filterMap_length_eq_length.mpr every, length_outcomes] at h
  exact Nat.lt_irrefl _ h

end Runner

namespace Program

variable {σ : Type} [World σ]

/-- **Steps go forward unless a loop begins another pass, and the sides of a branch are not mixed.**
A step between two leaves that no loop has in common goes to a greater number, and no branch has them
on different sides. Without loops the numbers that a runner delivers increase, whatever world each
step finds, no two of them are on different sides of a branch, and after as many of them as the
program has steps a step is done. -/
theorem next_goes_forward (p : Program) :
    (∀ (last step : Nat) (s t : σ), 1 ≤ last → last ≤ p.stepCount →
      p.next last s = (some step, t) → ¬ Task.InOneLoop p.parts last step →
        last < step ∧ ¬ Task.Divided p.parts last step) ∧
    (Task.Loopless p.parts → ∀ (cursor : Nat) (worlds : List σ),
      (Runner.outcomes ⟨some p, cursor⟩ worlds).length = worlds.length ∧
      (Runner.delivered ⟨some p, cursor⟩ worlds).Pairwise
        (fun i j => i < j ∧ ¬ Task.Divided p.parts i j) ∧
      (Runner.delivered ⟨some p, cursor⟩ worlds).length ≤ p.stepCount ∧
      (p.stepCount < worlds.length → Step.done ∈ Runner.outcomes ⟨some p, cursor⟩ worlds)) := by
  refine ⟨?_, ?_⟩
  · intro last step s t hlow hhigh h apart
    exact (p.orderly_next hlow hhigh h).resolve_left apart
  · intro loopless cursor worlds
    have ahead : (Runner.delivered ⟨some p, cursor⟩ worlds).Pairwise (Task.Ahead p.parts) :=
      (List.pairwise_cons.mp (Runner.isChain_delivered loopless cursor worlds).pairwise).2
    have few := Runner.length_delivered_le ahead
    refine ⟨Runner.length_outcomes p cursor worlds, ahead, few, ?_⟩
    intro many
    exact Runner.done_mem_outcomes (Nat.lt_of_le_of_lt few many)

/-- A loop before a branch: behind the loop the branch is asked and goes forward. In a branch alone the
cursor keeps to its side while the wall comes and goes, and the fourth step is done. -/
theorem next_goes_forward_wall :
    let alley : Program := .seq [.loop (.sensor .wall) (.act .move),
      .branch (.sensor .wall) (.act .shoot) (.act .pickUpAndUse)]
    let raid : Program := .seq [.branch (.sensor .wall) (.seq [.act .move, .act .shoot])
      (.act .pickUpAndUse), .act .turnClockwise]
    let walled : ScriptedWorld := { wall := ⟨[true]⟩ }
    let opening : ScriptedWorld := { wall := ⟨[false]⟩ }
    (alley.next 1 opening = (some 3, opening) ∧ ¬ Task.InOneLoop alley.parts 1 3 ∧ 1 < 3 ∧
      ¬ Task.Divided alley.parts 1 3) ∧
    Task.Loopless raid.parts ∧
    Runner.delivered (Runner.ofProgram raid) [walled, opening, opening, walled, opening] =
      [1, 2, 4] ∧
    [1, 2, 4].Pairwise (fun i j => i < j ∧ ¬ Task.Divided raid.parts i j) ∧
    Step.done ∈ Runner.outcomes (Runner.ofProgram raid)
      [walled, opening, opening, walled, opening] := by
  intro alley raid walled opening
  have found : alley.next 1 opening = (some 3, opening) := rfl
  have apart : ¬ Task.InOneLoop alley.parts 1 3 := by decide
  have loopless : Task.Loopless raid.parts := by decide
  obtain ⟨forward, together⟩ :=
    (next_goes_forward alley).1 1 3 opening opening (by decide) (by decide) found apart
  obtain ⟨-, ahead, -, ended⟩ := (next_goes_forward (σ := ScriptedWorld) raid).2 loopless 0
    [walled, opening, opening, walled, opening]
  exact ⟨⟨found, apart, forward, together⟩, loopless, rfl, ahead, ended (by decide)⟩

end Program

end RobotControl
