import RobotControl.Proofs.Text.Trimming
import RobotControl.Source.Form

/-!
Matching parentheses.

Counting parentheses from the left decides whether they match, and finds the one that closes the
first.

* `balancedFrom_append`: a balanced beginning only takes away the parentheses open before it.
* `exists_close_of_balancedFrom`: in a balanced text every open parenthesis is closed.
* `closeFrom_eq_some_iff`: the position found is the first with balanced text in front of it.
* `matchingClose_eq_some_iff`: two parentheses are partners when the text between them is balanced.
* `exists_partner`: in a balanced text a parenthesis has its partner.
-/

namespace RobotControl.Source

open Text

/-! ### One character at a time -/

/-- No character of the text is a parenthesis. -/
def Plain (cs : List Char) : Prop :=
  ∀ c ∈ cs, c ≠ '(' ∧ c ≠ ')'

@[simp]
theorem balancedFrom_nil (depth : Nat) : balancedFrom depth [] = (depth == 0) := rfl

@[simp]
theorem balancedFrom_open (depth : Nat) (cs : List Char) :
    balancedFrom depth ('(' :: cs) = balancedFrom (depth + 1) cs := rfl

@[simp]
theorem balancedFrom_close (depth : Nat) (cs : List Char) :
    balancedFrom (depth + 1) (')' :: cs) = balancedFrom depth cs := rfl

@[simp]
theorem balancedFrom_zero_close (cs : List Char) : balancedFrom 0 (')' :: cs) = false := rfl

theorem balancedFrom_other {depth : Nat} {c : Char} {cs : List Char} (h : c ≠ '(' ∧ c ≠ ')') :
    balancedFrom depth (c :: cs) = balancedFrom depth cs := by
  rw [balancedFrom]
  · exact fun heq => h.1 heq
  · exact fun heq => h.2 heq

theorem closeFrom_open (depth position : Nat) (cs : List Char) :
    closeFrom depth position ('(' :: cs) = closeFrom (depth + 1) (position + 1) cs := rfl

theorem closeFrom_close (depth position : Nat) (cs : List Char) :
    closeFrom (depth + 2) position (')' :: cs) = closeFrom (depth + 1) (position + 1) cs := rfl

theorem closeFrom_one_close (position : Nat) (cs : List Char) :
    closeFrom 1 position (')' :: cs) = some position := rfl

theorem closeFrom_other {depth position : Nat} {c : Char} {cs : List Char}
    (h : c ≠ '(' ∧ c ≠ ')') :
    closeFrom depth position (c :: cs) = closeFrom depth (position + 1) cs := by
  rw [closeFrom]
  · exact fun heq => h.1 heq
  · exact fun heq => h.2 heq

/-- A character is one of the parentheses or none. -/
theorem paren_cases (c : Char) : c = '(' ∨ c = ')' ∨ (c ≠ '(' ∧ c ≠ ')') := by
  by_cases ho : c = '('
  · exact Or.inl ho
  · by_cases hc : c = ')'
    · exact Or.inr (Or.inl hc)
    · exact Or.inr (Or.inr ⟨ho, hc⟩)

/-! ### Balanced texts one after another -/

/-- **A balanced beginning takes away the parentheses open before it** and leaves those that are
open for the rest. -/
theorem balancedFrom_append {depth : Nat} (more : Nat) {xs : List Char} (ys : List Char)
    (h : balancedFrom depth xs) :
    balancedFrom (depth + more) (xs ++ ys) = balancedFrom more ys := by
  induction xs generalizing depth with
  | nil =>
      have hzero : depth = 0 := by simpa using h
      rw [hzero, Nat.zero_add, List.nil_append]
  | cons c cs ih =>
      rw [List.cons_append]
      rcases paren_cases c with rfl | rfl | hc
      · rw [balancedFrom_open] at h ⊢
        rw [Nat.add_right_comm]
        exact ih h
      · cases depth with
        | zero => simp at h
        | succ depth =>
            rw [balancedFrom_close] at h
            rw [Nat.add_right_comm, balancedFrom_close]
            exact ih h
      · rw [balancedFrom_other hc] at h ⊢
        exact ih h

theorem balancedFrom_plain_append {depth : Nat} {xs ys : List Char} (h : Plain xs) :
    balancedFrom depth (xs ++ ys) = balancedFrom depth ys := by
  induction xs with
  | nil => rfl
  | cons c cs ih =>
      rw [List.cons_append, balancedFrom_other (h c List.mem_cons_self)]
      exact ih fun d hd => h d (List.mem_cons_of_mem c hd)

theorem balanced_append {xs ys : List Char} (h : balanced xs) :
    balanced (xs ++ ys) = balanced ys :=
  balancedFrom_append 0 ys h

theorem balanced_plain_append {xs ys : List Char} (h : Plain xs) :
    balanced (xs ++ ys) = balanced ys :=
  balancedFrom_plain_append h

theorem balanced_plain {xs : List Char} (h : Plain xs) : balanced xs := by
  rw [← List.append_nil xs, balanced_plain_append h]
  rfl

/-- Parentheses around a balanced text are partners. -/
theorem balanced_enclosed {inside ys : List Char} (h : balanced inside) :
    balanced ('(' :: (inside ++ ')' :: ys)) = balanced ys := by
  show balancedFrom (0 + 1) (inside ++ ')' :: ys) = balancedFrom 0 ys
  rw [balancedFrom_append 1 _ h, balancedFrom_close]

/-- **In a balanced text every open parenthesis is closed**: of `depth + 1` of them, `depth` are
closed before the last one is. -/
theorem exists_close_of_balancedFrom {depth more : Nat} {cs : List Char}
    (h : balancedFrom (depth + 1 + more) cs) :
    ∃ xs ys, cs = xs ++ ')' :: ys ∧ balancedFrom depth xs ∧ balancedFrom more ys := by
  induction cs generalizing depth with
  | nil =>
      rw [balancedFrom_nil, beq_iff_eq] at h
      omega
  | cons c cs ih =>
      rcases paren_cases c with rfl | rfl | hc
      · rw [balancedFrom_open, Nat.add_right_comm (depth + 1) more 1] at h
        obtain ⟨xs, ys, rfl, hx, hy⟩ := ih h
        exact ⟨'(' :: xs, ys, rfl, hx, hy⟩
      · rw [Nat.add_right_comm depth 1 more, balancedFrom_close] at h
        cases depth with
        | zero =>
            rw [Nat.zero_add] at h
            exact ⟨[], cs, rfl, rfl, h⟩
        | succ depth =>
            obtain ⟨xs, ys, rfl, hx, hy⟩ := ih h
            exact ⟨')' :: xs, ys, rfl, hx, hy⟩
      · rw [balancedFrom_other hc] at h
        obtain ⟨xs, ys, rfl, hx, hy⟩ := ih h
        refine ⟨c :: xs, ys, rfl, ?_, hy⟩
        rwa [balancedFrom_other hc]

/-! ### The partner of a parenthesis -/

/-- Counting passes over a balanced text. -/
theorem closeFrom_append {depth : Nat} (more : Nat) {xs : List Char} (position : Nat)
    (ys : List Char) (h : balancedFrom depth xs) :
    closeFrom (depth + (more + 1)) position (xs ++ ys) =
      closeFrom (more + 1) (position + xs.length) ys := by
  induction xs generalizing depth position with
  | nil =>
      have hzero : depth = 0 := by simpa using h
      rw [hzero, Nat.zero_add, List.nil_append]
      rfl
  | cons c cs ih =>
      rw [List.cons_append, List.length_cons, Nat.add_comm cs.length 1, ← Nat.add_assoc position]
      rcases paren_cases c with rfl | rfl | hc
      · rw [balancedFrom_open] at h
        rw [closeFrom_open, Nat.add_right_comm]
        exact ih (position + 1) h
      · cases depth with
        | zero => simp at h
        | succ depth =>
            rw [balancedFrom_close] at h
            rw [show depth + 1 + (more + 1) = depth + more + 2 by omega, closeFrom_close]
            exact ih (position + 1) h
      · rw [balancedFrom_other hc] at h
        rw [closeFrom_other hc]
        exact ih (position + 1) h

/-- **The parenthesis that closes the last open one** is the first with a text in front of it that
closes all the others. -/
theorem closeFrom_eq_some_iff {depth position close : Nat} {cs : List Char} :
    closeFrom (depth + 1) position cs = some close ↔
      ∃ xs ys, cs = xs ++ ')' :: ys ∧ balancedFrom depth xs ∧ close = position + xs.length := by
  constructor
  · intro h
    induction cs generalizing depth position with
    | nil => cases h
    | cons c cs ih =>
        rcases paren_cases c with rfl | rfl | hc
        · rw [closeFrom_open] at h
          obtain ⟨xs, ys, rfl, hx, hlen⟩ := ih h
          refine ⟨'(' :: xs, ys, rfl, hx, ?_⟩
          rw [hlen, List.length_cons]
          omega
        · cases depth with
          | zero =>
              have heq : position = close := Option.some.inj h
              exact ⟨[], cs, rfl, rfl, heq.symm⟩
          | succ depth =>
              rw [closeFrom_close] at h
              obtain ⟨xs, ys, rfl, hx, hlen⟩ := ih h
              refine ⟨')' :: xs, ys, rfl, hx, ?_⟩
              rw [hlen, List.length_cons]
              omega
        · rw [closeFrom_other hc] at h
          obtain ⟨xs, ys, rfl, hx, hlen⟩ := ih h
          refine ⟨c :: xs, ys, rfl, ?_, ?_⟩
          · rwa [balancedFrom_other hc]
          · rw [hlen, List.length_cons]
            omega
  · rintro ⟨xs, ys, rfl, hx, rfl⟩
    rw [closeFrom_append 0 position _ hx, Nat.zero_add, closeFrom_one_close]

/-- **Two parentheses are partners when the text between them is balanced.** -/
theorem matchingClose_eq_some_iff {close : Nat} {cs : List Char} :
    matchingClose ('(' :: cs) = some close ↔
      ∃ inside ys, cs = inside ++ ')' :: ys ∧ balanced inside ∧ close = inside.length + 1 := by
  have h : matchingClose ('(' :: cs) = closeFrom (0 + 1) 1 cs := rfl
  rw [h, closeFrom_eq_some_iff]
  constructor
  · rintro ⟨inside, ys, hcs, hinside, hlen⟩
    exact ⟨inside, ys, hcs, hinside, by rw [hlen, Nat.add_comm]⟩
  · rintro ⟨inside, ys, hcs, hinside, hlen⟩
    exact ⟨inside, ys, hcs, hinside, by rw [hlen, Nat.add_comm]⟩

/-- **In a balanced text a parenthesis has its partner**, and what follows the partner is balanced
for the parentheses that were open before. -/
theorem exists_partner {depth : Nat} {cs : List Char} (h : balancedFrom depth ('(' :: cs)) :
    ∃ inside ys, cs = inside ++ ')' :: ys ∧ balanced inside ∧ balancedFrom depth ys ∧
      matchingClose ('(' :: cs) = some (inside.length + 1) := by
  rw [balancedFrom_open, Nat.add_comm depth, ← Nat.zero_add 1] at h
  obtain ⟨inside, ys, rfl, hinside, hys⟩ := exists_close_of_balancedFrom h
  have hclose := matchingClose_eq_some_iff.mpr ⟨inside, ys, rfl, hinside, rfl⟩
  exact ⟨inside, ys, rfl, hinside, hys, hclose⟩

end RobotControl.Source
