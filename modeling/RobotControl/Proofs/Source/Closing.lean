import Mathlib.Order.Bounds.Basic
import RobotControl.Proofs.Source.Nesting
import RobotControl.Proofs.Text.Bytes

/-!
Which parenthesis closes another.

The partner of a parenthesis is found by counting on from it. In a text kept as bytes the bytes are
counted, and none has to be put together to a character on the way: the byte of a parenthesis never
occurs inside another character.

* `matchingClose_eq_some_iff_isLeast`: the partner is the first place behind which all parentheses
  opened since are closed.
* `isSome_matchingClose_of_balancedFrom`: in a balanced text every parenthesis has a partner.
* `closeAt`: the partner of the parenthesis at a byte.
* `closeFrom_octets`, `closeAt_append`: counting bytes finds what counting characters finds.
* `closeAt_eq_some_iff`: the partner at a byte is the first place that closes all, too.
-/

namespace RobotControl.Source

open String (utf8Len)
open Text

/-! ### The first place that closes all -/

/-- Behind the place `i` none of the parentheses is open that were opened since `start`. -/
def AllClosed (cs : List Char) (start i : Nat) : Prop :=
  start ≤ i ∧ i < cs.length ∧
    ((cs.drop start).take (i + 1 - start)).count ')' =
      ((cs.drop start).take (i + 1 - start)).count '('

instance (cs : List Char) (start i : Nat) : Decidable (AllClosed cs start i) :=
  inferInstanceAs (Decidable (_ ∧ _ ∧ _))

theorem allClosed_drop {cs : List Char} {start n : Nat} :
    AllClosed (cs.drop start) 0 n ↔ AllClosed cs start (start + n) := by
  have hsize : start + n + 1 - start = n + 1 := by omega
  simp only [AllClosed, List.drop_zero, List.length_drop, hsize, Nat.sub_zero]
  constructor
  · rintro ⟨-, hn, hcount⟩
    exact ⟨Nat.le_add_right _ _, by omega, hcount⟩
  · rintro ⟨-, hn, hcount⟩
    exact ⟨Nat.zero_le _, by omega, hcount⟩

/-- Nothing closes the last open parenthesis if no beginning of the text closes as many as are
open. -/
theorem closeFrom_eq_none_iff {depth position : Nat} {cs : List Char} :
    closeFrom (depth + 1) position cs = none ↔
      ∀ xs, xs <+: cs → xs.count ')' ≤ xs.count '(' + depth := by
  induction cs generalizing depth position with
  | nil => simp [closeFrom]
  | cons c cs ih =>
      rw [forall_prefix_cons]
      rcases paren_cases c with rfl | rfl | hc
      · rw [closeFrom_open, ih]
        simp [Nat.add_right_comm, Nat.add_assoc]
      · cases depth with
        | zero =>
            rw [closeFrom_one_close]
            simp only [reduceCtorEq, false_iff, not_and]
            rintro - h
            have := h [] List.nil_prefix
            simp at this
        | succ depth =>
            rw [closeFrom_close, ih]
            simp [← Nat.add_assoc]
      · rw [closeFrom_other hc, ih]
        simp [hc.1, hc.2]

section MatchingClose

variable {cs : List Char} {close n : Nat}

theorem matchingClose_open : matchingClose ('(' :: cs) = closeFrom (0 + 1) 1 cs := rfl

theorem allClosed_open_iff :
    AllClosed ('(' :: cs) 0 n ↔
      n ≤ cs.length ∧ (cs.take n).count ')' = (cs.take n).count '(' + 1 := by
  simp only [AllClosed, List.drop_zero, Nat.sub_zero, List.take_succ_cons, List.length_cons,
    Nat.lt_succ_iff, Nat.zero_le, true_and, List.count_cons_self]
  rw [List.count_cons_of_ne (by decide)]

theorem not_allClosed_of_matchingClose (h : matchingClose ('(' :: cs) = none) (n : Nat) :
    ¬ AllClosed ('(' :: cs) 0 n := by
  rw [matchingClose_open, closeFrom_eq_none_iff] at h
  rw [allClosed_open_iff]
  rintro ⟨-, hcount⟩
  have := h (cs.take n) (List.take_prefix n cs)
  omega

theorem isLeast_of_matchingClose (h : matchingClose ('(' :: cs) = some close) :
    IsLeast {n | AllClosed ('(' :: cs) 0 n} close := by
  obtain ⟨inside, ys, rfl, hinside, rfl⟩ := matchingClose_eq_some_iff.mp h
  obtain ⟨never, same⟩ := balanced_iff.mp hinside
  constructor
  · show AllClosed ('(' :: (inside ++ ')' :: ys)) 0 (inside.length + 1)
    have htake : (inside ++ ')' :: ys).take (inside.length + 1) = inside ++ [')'] := by
      rw [List.take_length_add_append, List.take_one, List.head?_cons, Option.toList_some]
    rw [allClosed_open_iff, htake]
    simp [same]
  · intro m hm
    obtain ⟨-, hcount⟩ := allClosed_open_iff.mp hm
    by_contra hlt
    -- Up to `m` the text is a beginning of what is between the two parentheses.
    rw [List.take_append_of_le_length (by omega)] at hcount
    have := never (inside.take m) (List.take_prefix m inside)
    omega

/-- **The partner of a parenthesis is the first place that closes all.** -/
theorem matchingClose_eq_some_iff_isLeast :
    matchingClose ('(' :: cs) = some close ↔ IsLeast {n | AllClosed ('(' :: cs) 0 n} close := by
  constructor
  · exact isLeast_of_matchingClose
  · intro h
    cases hclose : matchingClose ('(' :: cs) with
    | none => exact absurd h.1 (not_allClosed_of_matchingClose hclose close)
    | some found => rw [(isLeast_of_matchingClose hclose).unique h]

/-- The parenthesis that closes another is a character of the text. -/
theorem take_succ_of_matchingClose (hopen : cs.head? = some '(')
    (h : matchingClose cs = some close) : cs.take (close + 1) = cs.take close ++ [')'] := by
  cases cs with
  | nil => cases hopen
  | cons c cs =>
      obtain rfl : c = '(' := Option.some.inj hopen
      obtain ⟨inside, ys, rfl, -, rfl⟩ := matchingClose_eq_some_iff.mp h
      rw [List.take_succ_cons, List.take_succ_cons, List.take_left, List.take_length_add_append,
        List.take_one]
      rfl

/-- **In a balanced text every parenthesis is closed.** -/
theorem isSome_matchingClose_of_balancedFrom {depth : Nat} {before : List Char}
    (h : balancedFrom depth (before ++ '(' :: cs)) : (matchingClose ('(' :: cs)).isSome := by
  induction before generalizing depth with
  | nil =>
      obtain ⟨_, _, _, _, _, hclose⟩ := exists_partner h
      rw [hclose]
      rfl
  | cons c before ih =>
      rw [List.cons_append] at h
      rcases paren_cases c with rfl | rfl | hc
      · exact ih h
      · cases depth with
        | zero => simp at h
        | succ depth => exact ih h
      · rw [balancedFrom_other hc] at h
        exact ih h

end MatchingClose

/-! ### Places in bytes -/

/-- The byte of the parenthesis that closes the one at the byte `start`, found by counting bytes. -/
def closeAt (text : List Char) (start : Nat) : Option Nat :=
  closeFrom 0 start ((octets text).drop start)

theorem closeFrom_add (depth position more : Nat) (cs : List Char) :
    closeFrom depth (position + more) cs = (closeFrom depth position cs).map (· + more) := by
  induction cs generalizing depth position with
  | nil => rfl
  | cons c cs ih =>
      rcases paren_cases c with rfl | rfl | hc
      · rw [closeFrom_open, closeFrom_open, Nat.add_right_comm, ih]
      · match depth with
        | 0 => rfl
        | 1 => rfl
        | depth + 2 => rw [closeFrom_close, closeFrom_close, Nat.add_right_comm, ih]
      · rw [closeFrom_other hc, closeFrom_other hc, Nat.add_right_comm, ih]

theorem le_of_closeAt {text : List Char} {start close : Nat}
    (h : closeAt text start = some close) : start ≤ close := by
  rw [closeAt, ← Nat.zero_add start, closeFrom_add, Option.map_eq_some_iff] at h
  obtain ⟨n, -, rfl⟩ := h
  exact Nat.le_add_left _ _

theorem closeFrom_plain_append {depth position : Nat} {xs ys : List Char} (h : Plain xs) :
    closeFrom depth position (xs ++ ys) = closeFrom depth (position + xs.length) ys := by
  induction xs generalizing position with
  | nil => rfl
  | cons c xs ih =>
      rw [List.cons_append, closeFrom_other (h c List.mem_cons_self),
        ih fun d hd => h d (List.mem_cons_of_mem c hd), List.length_cons, Nat.add_right_comm,
        Nat.add_assoc]

theorem octets_open : octets ['('] = ['('] := rfl

theorem octets_close : octets [')'] = [')'] := rfl

/-- No part of a character is the byte of a parenthesis. -/
theorem plain_octets {c : Char} (h : c ≠ '(' ∧ c ≠ ')') : Plain (octets [c]) := by
  intro d hd
  constructor
  · rintro rfl
    exact h.1 (eq_of_mem_octets hd (by decide)).symm
  · rintro rfl
    exact h.2 (eq_of_mem_octets hd (by decide)).symm

/-- **Counting bytes finds the parenthesis that counting characters finds.** -/
theorem closeFrom_octets (depth position : Nat) (cs : List Char) :
    closeFrom depth position (octets cs) =
      (closeFrom depth 0 cs).map fun n => position + utf8Len (cs.take n) := by
  induction cs generalizing depth position with
  | nil => rfl
  | cons c cs ih =>
      -- Behind the character the two counts agree, whatever is open there.
      have hshift (depth position size : Nat) (hsize : c.utf8Size = size) :
          closeFrom depth (position + size) (octets cs) =
            (closeFrom depth 1 cs).map fun n => position + utf8Len ((c :: cs).take n) := by
        rw [ih, ← Nat.zero_add 1, closeFrom_add, Option.map_map]
        congr 1
        funext n
        simp [hsize]
        omega
      rw [octets_cons]
      rcases paren_cases c with rfl | rfl | hc
      · rw [octets_open]
        exact hshift (depth + 1) position 1 rfl
      · rw [octets_close]
        match depth with
        | 0 => rfl
        | 1 => rfl
        | depth + 2 => exact hshift (depth + 1) position 1 rfl
      · rw [closeFrom_plain_append (plain_octets hc), closeFrom_other hc]
        apply hshift
        rw [length_octets, String.utf8Len_cons, String.utf8Len_nil, Nat.zero_add]

theorem closeAt_append (before cs : List Char) :
    closeAt (before ++ cs) (utf8Len before) =
      (matchingClose cs).map fun n => utf8Len (before ++ cs.take n) := by
  rw [closeAt, drop_octets_append, closeFrom_octets]
  simp only [matchingClose, String.utf8Len_append]

section CloseAt

variable {text : List Char} {start close : Nat}

theorem isLeast_allClosed_drop {cs : List Char} {n : Nat} :
    IsLeast {n | AllClosed (cs.drop start) 0 n} n ↔
      IsLeast {i | AllClosed cs start i} (start + n) := by
  constructor
  · rintro ⟨hn, least⟩
    refine ⟨allClosed_drop.mp hn, fun i hi => ?_⟩
    obtain ⟨k, rfl⟩ := Nat.exists_eq_add_of_le hi.1
    exact Nat.add_le_add_left (least (allClosed_drop.mpr hi)) start
  · rintro ⟨hn, least⟩
    refine ⟨allClosed_drop.mpr hn, fun k hk => ?_⟩
    exact Nat.le_of_add_le_add_left (least (allClosed_drop.mp hk))

/-- From the byte of a parenthesis on, the first place that closes all is looked for. -/
theorem exists_drop_eq_open (h : (octets text)[start]? = some '(') :
    ∃ bs, (octets text).drop start = '(' :: bs ∧
      closeAt text start = (matchingClose ('(' :: bs)).map (· + start) := by
  obtain ⟨hlt, hopen⟩ := List.getElem?_eq_some_iff.mp h
  refine ⟨(octets text).drop (start + 1), ?_, ?_⟩
  · rw [List.drop_eq_getElem_cons hlt, hopen]
  · rw [closeAt, List.drop_eq_getElem_cons hlt, hopen, matchingClose, ← closeFrom_add, Nat.zero_add]

/-- **The partner of a parenthesis at a byte is the first place that closes all.** -/
theorem closeAt_eq_some_iff (h : (octets text)[start]? = some '(') :
    closeAt text start = some close ↔ IsLeast {i | AllClosed (octets text) start i} close := by
  obtain ⟨bs, hbs, hclose⟩ := exists_drop_eq_open h
  rw [hclose, Option.map_eq_some_iff]
  constructor
  · rintro ⟨n, hn, rfl⟩
    rw [matchingClose_eq_some_iff_isLeast, ← hbs, isLeast_allClosed_drop, Nat.add_comm] at hn
    exact hn
  · intro hleast
    obtain ⟨n, rfl⟩ := Nat.exists_eq_add_of_le hleast.1.1
    rw [← isLeast_allClosed_drop, hbs, ← matchingClose_eq_some_iff_isLeast] at hleast
    exact ⟨n, hleast, Nat.add_comm n start⟩

/-- Without a partner, the parentheses are never all closed again. -/
theorem not_allClosed_of_closeAt (h : (octets text)[start]? = some '(')
    (hnone : closeAt text start = none) (i : Nat) : ¬ AllClosed (octets text) start i := by
  obtain ⟨bs, hbs, hclose⟩ := exists_drop_eq_open h
  rw [hclose, Option.map_eq_none_iff] at hnone
  intro hi
  obtain ⟨n, rfl⟩ := Nat.exists_eq_add_of_le hi.1
  rw [← allClosed_drop, hbs] at hi
  exact not_allClosed_of_matchingClose hnone n hi

theorem getElem?_octets_open (before cs : List Char) :
    (octets (before ++ '(' :: cs))[utf8Len before]? = some '(' := by
  rw [← List.head?_drop, drop_octets_append, octets_cons, octets_open]
  rfl

theorem exists_allClosed_of_balanced {before cs : List Char} (h : balanced (before ++ '(' :: cs)) :
    ∃ i, AllClosed (octets (before ++ '(' :: cs)) (utf8Len before) i := by
  obtain ⟨close, hclose⟩ := Option.isSome_iff_exists.mp (isSome_matchingClose_of_balancedFrom h)
  have hat := closeAt_append before ('(' :: cs)
  rw [hclose, Option.map_some, closeAt_eq_some_iff (getElem?_octets_open _ _)] at hat
  exact ⟨_, hat.1⟩

end CloseAt

end RobotControl.Source
