import RobotControl.Proofs.Execution.Addressing
import RobotControl.Proofs.Execution.Walk

/-!
Grouping the parts of a sequence.

A sequence in a sequence only groups its parts. Its leaves have the numbers that they have without
the group, and no execution, whether it runs or steps, can tell that the group is there.

* `Program.Interchangeable`: no execution can tell two programs apart.
* `Program.SameIn`: the same of programs that follow one another, from any cursor.
* `Program.SameIn.of_group`: a group in front of other programs may be opened.
* `Program.grouping_invisible`: a group may be opened anywhere in a sequence, and a sequence of one
  program is that program.
-/

namespace RobotControl

namespace Walk

variable {σ : Type}

theorem shift_zero (w : Walk σ) : w.shift 0 = w := by
  simp [shift]

theorem shift_shift (below above : Nat) (w : Walk σ) :
    (w.shift above).shift below = w.shift (below + above) := by
  simp [shift, Nat.add_assoc]

theorem shift_andThen (below : Nat) (w : Walk σ) (next : Nat → σ → Walk σ) :
    (w.andThen next).shift below =
      (w.shift below).andThen fun budget s => (next budget s).shift below := by
  simp [andThen, shift]

theorem andThen_andThen (w : Walk σ) (next later : Nat → σ → Walk σ) :
    (w.andThen next).andThen later =
      w.andThen fun budget s => (next budget s).andThen later := by
  simp [andThen]

end Walk

section Answers

variable {σ : Type}

theorem map_zero_add (answer : Option Nat × σ) :
    Prod.map (Option.map (0 + ·)) id answer = answer := by
  simp

theorem map_add_map_add (below above : Nat) (answer : Option Nat × σ) :
    Prod.map (Option.map (below + ·)) id (Prod.map (Option.map (above + ·)) id answer) =
      Prod.map (Option.map (below + above + ·)) id answer := by
  obtain ⟨_ | step, t⟩ := answer
  · rfl
  · simp [Nat.add_assoc]

end Answers

namespace Program

/-- No execution can tell the programs apart. In recorded worlds they leave the same log, so the same
is read and attempted in the same order. -/
structure Interchangeable (p q : Program) : Prop where
  stepCount : p.stepCount = q.stepCount
  next : ∀ {σ : Type} [World σ] (last : Nat) (s : σ), last ≤ q.stepCount →
    p.next last s = q.next last s
  performStep : ∀ {σ : Type} [World σ] (step : Nat) (s : σ), 1 ≤ step → step ≤ q.stepCount →
    p.performStep step s = q.performStep step s
  run : ∀ {σ : Type} [World σ] (passes : Nat) (s : σ), p.run passes s = q.run passes s
  walk : ∀ {σ : Type} [World σ] (budget : Nat) (s : σ), p.walk budget s = q.walk budget s

/-- Where the leaves are the same, the steps are. -/
theorem performStep_congr {p q : Program} (h : p.leaves = q.leaves) {σ : Type} [World σ]
    {step : Nat} (s : σ) (hlow : 1 ≤ step) (hhigh : step ≤ q.stepCount) :
    p.performStep step s = q.performStep step s := by
  obtain ⟨action, hq⟩ := Option.isSome_iff_exists.mp (leaf?_isSome_iff.mpr ⟨hlow, hhigh⟩)
  have hp : p.leaf? step = some action := by rw [leaf?, h, ← leaf?, hq]
  rw [p.performStep_of_leaf? s hp, q.performStep_of_leaf? s hq]

/-- No execution can tell the one programs that follow one another from the other ones. -/
structure SameIn (ps qs : List Program) : Prop where
  leaves : leavesOf ps = leavesOf qs
  next : ∀ {σ : Type} [World σ] (last : Nat) (s : σ), nextIn ps last s = nextIn qs last s
  run : ∀ {σ : Type} [World σ] (passes : Nat) (s : σ), runAll passes ps s = runAll passes qs s
  walk : ∀ {σ : Type} [World σ] (budget : Nat) (s : σ), walkIn ps budget s = walkIn qs budget s

namespace SameIn

variable {ps qs rs : List Program}

theorem trans (first : SameIn ps qs) (second : SameIn qs rs) : SameIn ps rs where
  leaves := first.leaves.trans second.leaves
  next last s := (first.next last s).trans (second.next last s)
  run passes s := (first.run passes s).trans (second.run passes s)
  walk budget s := (first.walk budget s).trans (second.walk budget s)

/-- What comes before both does not matter. -/
theorem cons (p : Program) (h : SameIn ps qs) : SameIn (p :: ps) (p :: qs) where
  leaves := by rw [leavesOf, leavesOf, h.leaves]
  next last s := by
    rcases Nat.lt_or_ge p.stepCount last with hl | hl
    · rw [nextIn_cons_of_lt hl, nextIn_cons_of_lt hl, h.next]
    · rcases hp : p.next last s with ⟨_ | step, t⟩
      · rw [nextIn_cons_of_none hl hp, nextIn_cons_of_none hl hp, h.next]
      · rw [nextIn_cons_of_some hl hp, nextIn_cons_of_some hl hp]
  run passes s := by
    simp only [runAll, h.run]
  walk budget s := by
    simp only [walkIn, h.walk]

theorem append_left (ps : List Program) (h : SameIn qs rs) : SameIn (ps ++ qs) (ps ++ rs) := by
  induction ps with
  | nil => exact h
  | cons p ps ih => exact ih.cons p

/-- An empty group is nothing. -/
theorem of_empty (ps : List Program) : SameIn (.seq [] :: ps) ps where
  leaves := rfl
  next last s := by
    rcases Nat.eq_zero_or_pos last with rfl | pos
    · rw [nextIn_cons_of_none (Nat.zero_le _) rfl]
      exact map_zero_add (nextIn ps 0 s)
    · rw [nextIn_cons_of_lt pos]
      exact map_zero_add (nextIn ps last s)
  run passes s := by
    simp only [runAll, Program.run]
    cases runAll passes ps s <;> simp
  walk budget s := by
    simp only [walkIn, Program.walk]
    exact Walk.shift_zero (walkIn ps budget s)

/-- The first program of a group may be taken out at the front. -/
theorem of_group_cons (p : Program) (ps qs : List Program) :
    SameIn (.seq (p :: ps) :: qs) (p :: .seq ps :: qs) where
  leaves := by simp [leavesOf, Program.leaves]
  next last s := by
    have total : (seq (p :: ps)).stepCount = p.stepCount + stepCountOf ps := rfl
    -- The cursor is in the group and not before the end of its first program.
    have later {cursor : Nat} {t : _} (hl : last ≤ (seq (p :: ps)).stepCount)
        (hc : cursor ≤ (seq ps).stepCount)
        (hnext : (seq (p :: ps)).next last s =
          Prod.map (Option.map (p.stepCount + ·)) id (nextIn ps cursor t)) :
        nextIn (.seq (p :: ps) :: qs) last s =
          Prod.map (Option.map (p.stepCount + ·)) id (nextIn (.seq ps :: qs) cursor t) := by
      rcases hps : nextIn ps cursor t with ⟨_ | step, u⟩
      · rw [hps] at hnext
        rw [nextIn_cons_of_none hl hnext, nextIn_cons_of_none hc hps, map_add_map_add]
        rfl
      · rw [hps] at hnext
        rw [nextIn_cons_of_some hl hnext, nextIn_cons_of_some hc hps]
        rfl
    rcases Nat.lt_or_ge p.stepCount last with hp | hp
    · rw [nextIn_cons_of_lt hp]
      rcases Nat.lt_or_ge (p.stepCount + stepCountOf ps) last with hl | hl
      · rw [nextIn_cons_of_lt (total ▸ hl), nextIn_cons_of_lt (p := .seq ps), map_add_map_add]
        · rw [total, Nat.sub_sub]
          rfl
        · simp only [stepCount]
          omega
      · exact later hl (by simp only [stepCount]; omega) (nextIn_cons_of_lt hp ps s)
    · have hl : last ≤ (seq (p :: ps)).stepCount := by omega
      rcases hn : p.next last s with ⟨_ | step, t⟩
      · rw [nextIn_cons_of_none hp hn]
        exact later hl (Nat.zero_le _) (nextIn_cons_of_none hp hn ps)
      · rw [nextIn_cons_of_some hp hn]
        exact nextIn_cons_of_some hl (nextIn_cons_of_some hp hn ps) qs
  run passes s := by
    simp only [runAll, Program.run]
    rcases hp : p.run passes s with _ | ⟨first, t⟩
    · rfl
    · rcases hps : runAll passes ps t with _ | ⟨second, u⟩
      · simp only [hps]
      · rcases hqs : runAll passes qs u with _ | ⟨third, v⟩
        · simp only [hps, hqs]
        · simp only [hps, hqs, Nat.add_assoc]
  walk budget s := by
    simp only [walkIn, Program.walk, Walk.andThen_andThen, Walk.shift_andThen, Walk.shift_shift]
    rfl

/-- A group in front of other programs may be opened. -/
theorem of_group (ps qs : List Program) : SameIn (.seq ps :: qs) (ps ++ qs) := by
  induction ps with
  | nil => exact of_empty qs
  | cons p ps ih => exact (of_group_cons p ps qs).trans (ih.cons p)

/-- Sequences of such programs cannot be told apart. -/
theorem interchangeable (h : SameIn ps qs) : Interchangeable (.seq ps) (.seq qs) where
  stepCount := by
    rw [← length_leaves, ← length_leaves, Program.leaves, h.leaves, Program.leaves]
  next last s _ := h.next last s
  performStep _ s hlow hhigh :=
    performStep_congr (p := .seq ps) (q := .seq qs) h.leaves s hlow hhigh
  run passes s := h.run passes s
  walk budget s := h.walk budget s

end SameIn

/-- A sequence of one program is that program. -/
theorem interchangeable_singleton (p : Program) : Interchangeable (.seq [p]) p where
  stepCount := rfl
  next last s hl := by
    rw [Program.next]
    rcases hp : p.next last s with ⟨_ | step, t⟩
    · rw [nextIn_cons_of_none hl hp]
      rfl
    · rw [nextIn_cons_of_some hl hp]
  performStep _ s hlow hhigh :=
    performStep_congr (by simp [Program.leaves, leavesOf]) s hlow hhigh
  run passes s := by
    simp only [Program.run, runAll]
    cases p.run passes s <;> rfl
  walk budget s := by
    simp [Program.walk, walkIn, Walk.andThen, Walk.shift]

/-- **Grouping in a sequence is invisible.** A group anywhere in a sequence may be opened, and an empty
one left out: the programs have as many steps, the same comes next from any cursor after the same
readings, the same numbers attempt the same actions, and runs and interrupted runs are the same. A
sequence of one program is that program, for the cursors and the numbers that it has. -/
theorem grouping_invisible :
    (∀ xs ys zs : List Program,
      Interchangeable (.seq (xs ++ [.seq ys] ++ zs)) (.seq (xs ++ ys ++ zs)) ∧
        ∀ {σ : Type} [World σ] (last : Nat) (s : σ),
          (seq (xs ++ [.seq ys] ++ zs)).next last s = (seq (xs ++ ys ++ zs)).next last s) ∧
    ∀ p : Program, Interchangeable (.seq [p]) p := by
  refine ⟨?_, interchangeable_singleton⟩
  intro xs ys zs
  have same : SameIn (xs ++ [.seq ys] ++ zs) (xs ++ ys ++ zs) := by
    rw [List.append_assoc, List.append_assoc]
    exact (SameIn.of_group ys zs).append_left xs
  exact ⟨same.interchangeable, fun last s => same.next last s⟩

end Program

end RobotControl
