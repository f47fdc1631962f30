import Mathlib.Data.List.Forall2

/-!
Computations that may fail, one after another.

The first fault ends them all, so they succeed exactly when each of them does with what the ones
before it gave.

* `bind_eq_ok_iff`: two of them succeed together.
* `mapM_eq_ok_iff`: the computations of a list succeed together.
* `mapM_of_fault`: the computations of a list fail with the first fault among them.
-/

namespace RobotControl

variable {ε α β : Type}

/-- The second computation goes on from what the first one gave. -/
theorem bind_eq_ok_iff {x : Except ε α} {f : α → Except ε β} {y : β} :
    (x >>= f) = .ok y ↔ ∃ value, x = .ok value ∧ f value = .ok y := by
  cases x with
  | error e =>
      constructor
      · intro h
        cases h
      · rintro ⟨value, h, -⟩
        cases h
  | ok value =>
      constructor
      · intro h
        exact ⟨value, rfl, h⟩
      · rintro ⟨_, heq, h⟩
        cases heq
        exact h

variable {f : α → Except ε β}

/-- The answers of a list of computations are the answers of each one. -/
theorem mapM_eq_ok_iff {xs : List α} {ys : List β} :
    xs.mapM f = .ok ys ↔ List.Forall₂ (fun x y => f x = .ok y) xs ys := by
  induction xs generalizing ys with
  | nil =>
      rw [List.mapM_nil, List.forall₂_nil_left_iff]
      constructor
      · intro h
        exact (Except.ok.inj h).symm
      · rintro rfl
        rfl
  | cons x xs ih =>
      rw [List.mapM_cons, bind_eq_ok_iff, List.forall₂_cons_left_iff]
      constructor
      · rintro ⟨y, head, h⟩
        obtain ⟨ys', tail, h⟩ := bind_eq_ok_iff.mp h
        exact ⟨y, ys', head, ih.mp tail, (Except.ok.inj h).symm⟩
      · rintro ⟨y, ys', head, tail, rfl⟩
        exact ⟨y, head, bind_eq_ok_iff.mpr ⟨ys', ih.mpr tail, rfl⟩⟩

/-- What follows the first fault does not matter. -/
theorem mapM_of_fault {before behind : List α} {x : α} {e : ε}
    (hbefore : ∀ earlier ∈ before, ∃ y, f earlier = .ok y) (h : f x = .error e) :
    (before ++ x :: behind).mapM f = .error e := by
  induction before with
  | nil =>
      rw [List.nil_append, List.mapM_cons, h]
      rfl
  | cons earlier before ih =>
      obtain ⟨y, hy⟩ := hbefore earlier List.mem_cons_self
      rw [List.cons_append, List.mapM_cons, hy,
        ih fun other hother => hbefore other (List.mem_cons_of_mem earlier hother)]
      rfl

end RobotControl
