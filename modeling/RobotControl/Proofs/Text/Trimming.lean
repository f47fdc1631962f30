import Mathlib.Data.List.TakeWhile
import RobotControl.Text.Blank

/-!
Trimming.

* `takeWhile_append_stop`, `dropWhile_append_stop`: a run of characters of one kind ends where a
  character of another kind stands.
* `trim_surrounded`: the white space around a text that neither begins nor ends with any is trimmed.
* `exists_eq_append_trim`: nothing but white space is trimmed.
* `isEmpty_trim_iff`: a text of white space is trimmed to nothing, and no other text is.
* `trim_trim`: nothing is left to trim.
-/

namespace RobotControl.Text

/-! ### Runs of one kind -/

section Runs

variable {p : Char → Bool} {xs ys : List Char}

theorem takeWhile_append_stop (run : ∀ c ∈ xs, p c) (stop : ∀ c ∈ ys.head?, p c = false) :
    (xs ++ ys).takeWhile p = xs := by
  rw [List.takeWhile_append_of_pos run]
  cases ys with
  | nil => simp
  | cons y ys => simp [stop y rfl]

theorem dropWhile_append_stop (run : ∀ c ∈ xs, p c) (stop : ∀ c ∈ ys.head?, p c = false) :
    (xs ++ ys).dropWhile p = ys := by
  rw [List.dropWhile_append_of_pos run]
  cases ys with
  | nil => rfl
  | cons y ys => simp [stop y rfl]

/-- A run as long as a beginning of the text is that beginning. -/
theorem takeWhile_eq_of_length (h : ((xs ++ ys).takeWhile p).length = xs.length) :
    (xs ++ ys).takeWhile p = xs := by
  rw [List.prefix_iff_eq_take.mp (List.takeWhile_prefix p), h, List.take_left]

theorem dropWhile_eq_of_length (h : ((xs ++ ys).takeWhile p).length = xs.length) :
    (xs ++ ys).dropWhile p = ys := by
  have hsplit : (xs ++ ys).takeWhile p ++ (xs ++ ys).dropWhile p = xs ++ ys :=
    List.takeWhile_append_dropWhile
  rw [takeWhile_eq_of_length h] at hsplit
  exact List.append_cancel_left hsplit

/-- What follows a run does not continue it. -/
theorem head?_dropWhile_stop (p : Char → Bool) (cs : List Char) :
    ∀ c ∈ (cs.dropWhile p).head?, p c = false := by
  intro c hc
  have h := List.head?_dropWhile_not p cs
  rw [Option.mem_def.mp hc] at h
  exact h

end Runs

/-! ### White space -/

/-- The printed characters of ASCII are no white space. -/
theorem isBlank_eq_false_of_ascii {c : Char} (above : 0x20 < c.toNat) (below : c.toNat < 0x7F) :
    isBlank c = false := by
  simp [isBlank, inRanges, blankRanges]
  omega

/-- The text is white space and nothing else. -/
def Blanks (cs : List Char) : Prop :=
  ∀ c ∈ cs, isBlank c

instance (cs : List Char) : Decidable (Blanks cs) :=
  decidable_of_iff (cs.all isBlank) List.all_eq_true

theorem Blanks.nil : Blanks [] := by
  intro c hc
  cases hc

theorem blanks_space : Blanks [' '] := by decide

theorem Blanks.append {xs ys : List Char} (hx : Blanks xs) (hy : Blanks ys) :
    Blanks (xs ++ ys) := by
  intro c hc
  rcases List.mem_append.mp hc with h | h
  · exact hx c h
  · exact hy c h

theorem blanks_takeWhile (cs : List Char) : Blanks (cs.takeWhile isBlank) := by
  intro c hc
  exact List.mem_takeWhile_imp hc

theorem skipBlanks_append {gap cs : List Char} (h : Blanks gap) :
    skipBlanks (gap ++ cs) = skipBlanks cs :=
  List.dropWhile_append_of_pos h

theorem skipBlanks_eq_self {cs : List Char} (h : ∀ c ∈ cs.head?, isBlank c = false) :
    skipBlanks cs = cs :=
  dropWhile_append_stop (fun _ hc => absurd hc List.not_mem_nil) h

theorem dropTrailingBlanks_append {core behind : List Char} (h : Blanks behind)
    (last : ∀ c ∈ core.getLast?, isBlank c = false) :
    dropTrailingBlanks (core ++ behind) = core := by
  have hrun : ∀ c ∈ behind.reverse, isBlank c := fun c hc => h c (List.mem_reverse.mp hc)
  have hstop : ∀ c ∈ core.reverse.head?, isBlank c = false := by
    rw [List.head?_reverse]
    exact last
  rw [dropTrailingBlanks, List.reverse_append, dropWhile_append_stop hrun hstop,
    List.reverse_reverse]

/-- **Trimming takes off the white space around a text**, all of it if the text neither begins nor
ends with any. -/
theorem trim_surrounded {before core behind : List Char} (hb : Blanks before) (he : Blanks behind)
    (first : ∀ c ∈ core.head?, isBlank c = false) (last : ∀ c ∈ core.getLast?, isBlank c = false) :
    trim (before ++ (core ++ behind)) = core := by
  rw [trim, skipBlanks_append hb]
  cases core with
  | nil =>
      have hnil : skipBlanks behind = [] := List.dropWhile_eq_nil_iff.mpr he
      rw [List.nil_append, hnil]
      rfl
  | cons c cs =>
      have hskip : skipBlanks (c :: cs ++ behind) = c :: cs ++ behind := skipBlanks_eq_self first
      rw [hskip, dropTrailingBlanks_append he last]

theorem dropTrailingBlanks_append_takeWhile (cs : List Char) :
    dropTrailingBlanks cs ++ (cs.reverse.takeWhile isBlank).reverse = cs := by
  rw [dropTrailingBlanks, ← List.reverse_append, List.takeWhile_append_dropWhile,
    List.reverse_reverse]

/-- **Trimming takes off nothing but white space.** -/
theorem exists_eq_append_trim (cs : List Char) :
    ∃ before behind, Blanks before ∧ Blanks behind ∧ cs = before ++ (trim cs ++ behind) := by
  refine ⟨cs.takeWhile isBlank, ((skipBlanks cs).reverse.takeWhile isBlank).reverse,
    blanks_takeWhile cs, fun c hc => blanks_takeWhile _ c (List.mem_reverse.mp hc), ?_⟩
  rw [trim, dropTrailingBlanks_append_takeWhile, skipBlanks, List.takeWhile_append_dropWhile]

theorem head?_trim (cs : List Char) : ∀ c ∈ (trim cs).head?, isBlank c = false := by
  intro c hc
  have hskip : c ∈ (skipBlanks cs).head? := by
    rw [← dropTrailingBlanks_append_takeWhile (skipBlanks cs), List.head?_append]
    rw [show dropTrailingBlanks (skipBlanks cs) = trim cs from rfl, Option.mem_def.mp hc]
    rfl
  exact head?_dropWhile_stop isBlank cs c hskip

theorem getLast?_trim (cs : List Char) : ∀ c ∈ (trim cs).getLast?, isBlank c = false := by
  intro c hc
  rw [trim, dropTrailingBlanks, List.getLast?_reverse] at hc
  exact head?_dropWhile_stop isBlank _ c hc

theorem isEmpty_trim_iff {cs : List Char} : (trim cs).isEmpty ↔ Blanks cs := by
  rw [List.isEmpty_iff]
  constructor
  · intro h
    obtain ⟨before, behind, hb, he, hcs⟩ := exists_eq_append_trim cs
    rw [hcs, h]
    exact hb.append he
  · intro h
    have hskip : skipBlanks cs = [] := List.dropWhile_eq_nil_iff.mpr h
    rw [trim, hskip]
    rfl

theorem trim_trim (cs : List Char) : trim (trim cs) = trim cs := by
  have h := trim_surrounded Blanks.nil Blanks.nil (head?_trim cs) (getLast?_trim cs)
  rwa [List.nil_append, List.append_nil] at h

end RobotControl.Text
