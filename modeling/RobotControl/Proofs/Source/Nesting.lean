import Mathlib.Data.List.Infix
import RobotControl.Proofs.Source.Splitting

/-!
Counting parentheses.

What a text's parentheses come to is said by counting them in its beginnings, without following them
one by one.

* `Imbalanced`, `NestsWithin`: what the counts say of balance and of depth.
* `imbalanced_iff`: a text is balanced when no beginning has more closing parentheses than opening
  ones and the whole has as many of the one as of the other.
* `NestsWithin.of_append`, `NestsWithin.of_balanced_append`, `NestsWithin.enclosed_iff`: depth of the
  parts of a text.
* `NestsWithin.of_framed`, `Splits.nestsWithin`: the arguments of a form nest one level less deep
  than the form.
-/

namespace RobotControl.Source

open Text

/-- Some beginning of the text has more closing parentheses than opening ones, or the whole text has
not as many of the one as of the other. -/
def Imbalanced (cs : List Char) : Prop :=
  (∃ xs, xs <+: cs ∧ xs.count '(' < xs.count ')') ∨ cs.count '(' ≠ cs.count ')'

/-- Parentheses nest at most `n` deep: no beginning of the text leaves more than `n` of them open. -/
def NestsWithin (n : Nat) (cs : List Char) : Prop :=
  ∀ xs, xs <+: cs → xs.count '(' ≤ xs.count ')' + n

instance (n : Nat) (cs : List Char) : Decidable (NestsWithin n cs) :=
  decidable_of_iff (∀ xs ∈ cs.inits, xs.count '(' ≤ xs.count ')' + n) (by
    simp only [NestsWithin, List.mem_inits])

/-! ### Balance -/

/-- Something holds of every beginning of a text if it holds of none of it, and of every beginning
of what follows the first character with that character in front. -/
theorem forall_prefix_cons {P : List Char → Prop} {c : Char} {cs : List Char} :
    (∀ xs, xs <+: c :: cs → P xs) ↔ P [] ∧ ∀ xs, xs <+: cs → P (c :: xs) := by
  constructor
  · intro h
    exact ⟨h [] List.nil_prefix, fun xs hxs => h _ (List.cons_prefix_cons.mpr ⟨rfl, hxs⟩)⟩
  · rintro ⟨hnil, hcons⟩ xs hxs
    rcases List.prefix_cons_iff.mp hxs with rfl | ⟨t, rfl, ht⟩
    · exact hnil
    · exact hcons t ht

/-- **Following the parentheses is counting them**: with `depth` of them open before the text, they
match when no beginning closes more than are open and the whole closes them all. -/
theorem balancedFrom_iff {depth : Nat} {cs : List Char} :
    balancedFrom depth cs ↔
      (∀ xs, xs <+: cs → xs.count ')' ≤ xs.count '(' + depth) ∧
        cs.count ')' = cs.count '(' + depth := by
  induction cs generalizing depth with
  | nil =>
      rw [balancedFrom_nil, beq_iff_eq]
      simp only [List.prefix_nil, forall_eq, List.count_nil, Nat.zero_add]
      omega
  | cons c cs ih =>
      rw [forall_prefix_cons]
      rcases paren_cases c with rfl | rfl | hc
      · rw [balancedFrom_open, ih]
        simp [Nat.add_right_comm, Nat.add_assoc]
      · cases depth with
        | zero =>
            -- The parenthesis alone is a beginning that closes too many.
            rw [balancedFrom_zero_close]
            simp only [Bool.false_eq_true, false_iff, not_and]
            rintro ⟨-, h⟩
            have := h [] List.nil_prefix
            simp at this
        | succ depth =>
            rw [balancedFrom_close, ih]
            simp [← Nat.add_assoc]
      · rw [balancedFrom_other hc, ih]
        simp [hc.1, hc.2]

theorem balanced_iff {cs : List Char} :
    balanced cs ↔ (∀ xs, xs <+: cs → xs.count ')' ≤ xs.count '(') ∧
      cs.count ')' = cs.count '(' :=
  balancedFrom_iff

/-- **Parentheses match unless the counts say otherwise.** -/
theorem imbalanced_iff {cs : List Char} : Imbalanced cs ↔ balanced cs = false := by
  rw [Bool.eq_false_iff, ne_eq, balanced_iff, Imbalanced]
  constructor
  · rintro (⟨xs, hxs, more⟩ | differ) ⟨never, same⟩
    · exact absurd (never xs hxs) (Nat.not_le.mpr more)
    · exact differ same.symm
  · intro h
    by_cases same : cs.count '(' = cs.count ')'
    · left
      by_contra hnone
      apply h
      refine ⟨fun xs hxs => ?_, same.symm⟩
      by_contra hlt
      exact hnone ⟨xs, hxs, Nat.not_le.mp hlt⟩
    · exact .inr same

theorem count_eq_of_balanced {cs : List Char} (h : balanced cs) : cs.count '(' = cs.count ')' :=
  (balanced_iff.mp h).2.symm

theorem balanced_of_enclosed_or_word {cs : List Char} (h : Enclosed cs ∨ Word cs) :
    balanced cs := by
  rw [← List.append_nil cs]
  rcases h with h | h
  · rw [h.balanced_append]
    rfl
  · rw [h.balanced_append]
    rfl

/-! ### Depth -/

namespace NestsWithin

variable {n : Nat} {xs ys cs : List Char}

theorem mono {k : Nat} (h : NestsWithin n cs) (le : n ≤ k) : NestsWithin k cs :=
  fun zs hzs => (h zs hzs).trans (Nat.add_le_add_left le _)

/-- A beginning of a text nests no deeper than the text. -/
theorem of_append (h : NestsWithin n (xs ++ ys)) : NestsWithin n xs :=
  fun zs hzs => h zs (hzs.trans (List.prefix_append xs ys))

/-- Behind a balanced beginning a text nests no deeper than the whole. -/
theorem of_balanced_append (hb : balanced xs) (h : NestsWithin n (xs ++ ys)) :
    NestsWithin n ys := by
  intro zs hzs
  have hall := h (xs ++ zs) ((List.prefix_append_right_inj xs).mpr hzs)
  have hxs := count_eq_of_balanced hb
  rw [List.count_append, List.count_append] at hall
  omega

theorem append (hb : balanced xs) (hx : NestsWithin n xs) (hy : NestsWithin n ys) :
    NestsWithin n (xs ++ ys) := by
  intro zs hzs
  rcases List.prefix_or_prefix_of_prefix hzs (List.prefix_append xs ys) with h | ⟨us, rfl⟩
  · exact hx zs h
  · have hall := hy us ((List.prefix_append_right_inj xs).mp hzs)
    have hxs := count_eq_of_balanced hb
    rw [List.count_append, List.count_append]
    omega

/-- Without an opening parenthesis there is no level. -/
theorem of_not_mem (h : '(' ∉ cs) : NestsWithin n cs := by
  intro zs hzs
  rw [List.count_eq_zero.mpr fun hmem => h (hzs.subset hmem)]
  exact Nat.zero_le _

/-- An opening parenthesis is a level. -/
theorem open_iff : NestsWithin n ('(' :: cs) ↔ ∃ k, n = k + 1 ∧ NestsWithin k cs := by
  rw [NestsWithin, forall_prefix_cons]
  constructor
  · rintro ⟨-, h⟩
    have hpos := h [] List.nil_prefix
    obtain ⟨k, rfl⟩ : ∃ k, n = k + 1 := ⟨n - 1, by simp at hpos; omega⟩
    refine ⟨k, rfl, fun zs hzs => ?_⟩
    have := h zs hzs
    simp at this
    omega
  · rintro ⟨k, rfl, h⟩
    refine ⟨by simp, fun zs hzs => ?_⟩
    have := h zs hzs
    simp
    omega

/-- A pair of parentheses is one level more than what it encloses. -/
theorem enclosed_iff (hb : balanced xs) :
    NestsWithin n ('(' :: (xs ++ [')'])) ↔ ∃ k, n = k + 1 ∧ NestsWithin k xs := by
  rw [open_iff]
  constructor
  · rintro ⟨k, rfl, h⟩
    exact ⟨k, rfl, h.of_append⟩
  · rintro ⟨k, rfl, h⟩
    exact ⟨k, rfl, append hb h (of_not_mem (by decide))⟩

/-- What is written behind the tag of a form nests one level less deep than the form. -/
theorem of_framed {word : String} (h : NestsWithin n cs) (framed : Framed word xs cs)
    (hword : Word word.toList) : ∃ k, n = k + 1 ∧ NestsWithin k xs := by
  obtain ⟨before, gap, tag, after, behind, hbefore, hgap, hafter, hbehind, htag, rfl⟩ := framed
  have hword' := hword.of_map_toLower htag
  have hgap' := balanced_plain (plain_of_blanks hgap)
  have hform := (h.of_balanced_append (balanced_plain (plain_of_blanks hbefore))).of_append
  obtain ⟨k, rfl, hinside⟩ := open_iff.mp hform
  have hrest := hinside.of_append.of_balanced_append hgap'
  exact ⟨k, rfl, (hrest.of_balanced_append (balanced_plain (plain_of_inTag hword'.2))).of_append⟩

end NestsWithin

/-! ### Arguments -/

/-- Arguments are forms and words. -/
theorem Splits.enclosed_or_word {cs : List Char} {args : List (List Char)} (h : Splits cs args) :
    ∀ arg ∈ args, Enclosed arg ∨ Word arg := by
  induction h with
  | nil => exact fun arg harg => absurd harg List.not_mem_nil
  | form _ enclosed _ ih => exact List.forall_mem_cons.mpr ⟨.inl enclosed, ih⟩
  | word _ isWord _ _ ih => exact List.forall_mem_cons.mpr ⟨.inr isWord, ih⟩

/-- Arguments nest no deeper than the text that they are written in. -/
theorem Splits.nestsWithin {n : Nat} {cs : List Char} {args : List (List Char)}
    (h : Splits cs args) (hn : NestsWithin n cs) : ∀ arg ∈ args, NestsWithin n arg := by
  induction h with
  | nil => exact fun arg harg => absurd harg List.not_mem_nil
  | form blanks enclosed _ ih =>
      have hform := hn.of_balanced_append (balanced_plain (plain_of_blanks blanks))
      have hbalanced := balanced_of_enclosed_or_word (.inl enclosed)
      exact List.forall_mem_cons.mpr ⟨hform.of_append, ih (hform.of_balanced_append hbalanced)⟩
  | word blanks isWord _ _ ih =>
      have hword := hn.of_balanced_append (balanced_plain (plain_of_blanks blanks))
      have hbalanced := balanced_of_enclosed_or_word (.inr isWord)
      exact List.forall_mem_cons.mpr ⟨hword.of_append, ih (hword.of_balanced_append hbalanced)⟩

/-- An argument is not blank. -/
theorem not_blanks_of_enclosed_or_word {cs : List Char} (h : Enclosed cs ∨ Word cs) :
    ¬ Blanks cs := by
  intro hblanks
  rcases h with ⟨inside, -, rfl⟩ | ⟨hne, hword⟩
  · have := hblanks '(' List.mem_cons_self
    rw [isBlank_openParen] at this
    cases this
  · obtain ⟨c, hc⟩ := List.exists_mem_of_ne_nil cs hne
    have := hblanks c hc
    rw [(inTag_iff.mp (hword c hc)).1] at this
    cases this

end RobotControl.Source
