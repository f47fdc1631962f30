import RobotControl.Proofs.Source.Closing

/-!
Arguments as slices.

The arguments of a form are slices of the text behind its tag. A cursor goes through the bytes of
that text: over one character of white space, over a form to the byte behind its closing
parenthesis, or over a word up to the next white space or opening parenthesis. What it goes over
without cutting it out is white space, so the slices and the white space make up the text.

* `slicesFrom`: the cursor's way through the bytes.
* `Finds`: its way through the characters. `Finds.slicesFrom_eq` says that it is the same way, and
  that the cursor never stands inside a character.
* `Tiles`, `Finds.tiles`: slices in order that do not overlap, with white space everywhere else.
* `NeverOverclosed`, `argument_cases`: what an argument is where no parenthesis is closed that is
  not open.
* `Finds.kinds`: an argument is a form, a whole word, or what follows a parenthesis that is never
  closed.
* `slices_tile_text`: looking for arguments loses nothing and invents nothing.
-/

namespace RobotControl.Source

open LogLevel (dropBytes)
open String (utf8Len)
open Text

/-! ### The cursor -/

/-- The byte behind the argument that begins at the byte `start`, where the text goes on with
`cs`. -/
def argumentStop (text : List Char) (start : Nat) (cs : List Char) : Nat :=
  if cs.head? = some '(' then
    match closeAt text start with
    | some close => close + 1
    | none => utf8Len text
  else start + utf8Len (cs.takeWhile inWord)

theorem lt_argumentStop {text : List Char} {start : Nat} {c : Char} {cs : List Char}
    (inside : start < utf8Len text) (first : isBlank c = false) :
    start < argumentStop text start (c :: cs) := by
  rw [argumentStop]
  split
  · split
    · rename_i close hclose
      exact Nat.lt_succ_of_le (le_of_closeAt hclose)
    · exact inside
  · rename_i hopen
    have hword : inWord c := by
      simpa [inWord, first] using hopen
    rw [List.takeWhile_cons, if_pos hword, String.utf8Len_cons]
    have := c.utf8Size_pos
    omega

/-- The arguments from the byte `start` on, cut out of the text. There is no answer if the cursor
comes to stand inside a character. -/
def slicesFrom (text : List Char) (start : Nat) : Option (List Slice) :=
  if start < utf8Len text then
    match dropBytes start text with
    | none => none
    | some [] => some []
    | some (c :: cs) =>
      if isBlank c then slicesFrom text (start + c.utf8Size)
      else do
        let slice ← cut? text start (argumentStop text start (c :: cs))
        let slices ← slicesFrom text (argumentStop text start (c :: cs))
        return slice :: slices
  else some []
termination_by utf8Len text - start
decreasing_by
  · have := c.utf8Size_pos
    omega
  · rename_i inside notBlank
    have := @lt_argumentStop text start c cs inside (Bool.eq_false_iff.mpr notBlank)
    omega

/-- The arguments of a text. -/
def argumentSlices (text : List Char) : Option (List Slice) :=
  slicesFrom text 0

/-! ### From bytes to characters -/

/-- **In bytes an argument ends where it ends in characters.** -/
theorem argumentStop_append {before arg cs : List Char}
    (length : argumentLength (arg ++ cs) = arg.length) :
    argumentStop (before ++ (arg ++ cs)) (utf8Len before) (arg ++ cs) =
      utf8Len (before ++ arg) := by
  rw [argumentLength] at length
  rw [argumentStop]
  split at length
  · rename_i hopen
    rw [if_pos hopen, closeAt_append]
    cases hclose : matchingClose (arg ++ cs) with
    | none =>
        rw [hclose] at length
        have hcs : cs = [] := by simpa using length
        rw [hcs, List.append_nil]
        rfl
    | some close =>
        rw [hclose] at length
        have hlength : close + 1 = arg.length := length
        have harg := take_succ_of_matchingClose hopen hclose
        rw [hlength, List.take_left] at harg
        calc utf8Len (before ++ (arg ++ cs).take close) + 1
            = utf8Len (before ++ ((arg ++ cs).take close ++ [')'])) := by
              rw [← List.append_assoc, String.utf8Len_append _ [')']]
              rfl
          _ = utf8Len (before ++ arg) := by rw [← harg]
  · rename_i hopen
    rw [if_neg hopen, takeWhile_eq_of_length length, String.utf8Len_append]

theorem slicesFrom_nil (text : List Char) : slicesFrom text (utf8Len text) = some [] := by
  rw [slicesFrom, if_neg (Nat.lt_irrefl _)]

theorem slicesFrom_blank {before cs : List Char} {c : Char} (h : isBlank c) :
    slicesFrom (before ++ c :: cs) (utf8Len before) =
      slicesFrom (before ++ c :: cs) (utf8Len (before ++ [c])) := by
  rw [slicesFrom, if_pos (lt_utf8Len_append_cons before c cs), dropBytes_append]
  simp only [if_pos h, String.utf8Len_append, String.utf8Len_cons, String.utf8Len_nil,
    Nat.zero_add]

/-- An argument is cut out whole, and the cursor goes on behind it. -/
theorem slicesFrom_argument {before arg cs : List Char} {c : Char} (first : isBlank c = false)
    (length : argumentLength (c :: arg ++ cs) = (c :: arg).length) :
    slicesFrom (before ++ (c :: arg ++ cs)) (utf8Len before) =
      (slicesFrom (before ++ (c :: arg ++ cs)) (utf8Len (before ++ c :: arg))).map
        (⟨utf8Len before, c :: arg⟩ :: ·) := by
  have hstop := @argumentStop_append before _ _ length
  have hcut := cut?_append before (c :: arg) cs
  rw [List.cons_append] at hstop hcut ⊢
  rw [slicesFrom, if_pos (lt_utf8Len_append_cons before c (arg ++ cs)), dropBytes_append]
  simp only [first, Bool.false_eq_true, if_false, hstop, hcut, Option.bind_eq_bind,
    Option.bind_some]
  exact Option.map_eq_bind.symm

/-! ### The way through the characters -/

/-- Behind the text `before`, the cursor goes through the characters of the second text and finds
the slices there. -/
inductive Finds : List Char → List Char → List Slice → Prop where
  | finish (before : List Char) : Finds before [] []
  | blank {before cs : List Char} {c : Char} {slices : List Slice} (hblank : isBlank c)
      (later : Finds (before ++ [c]) cs slices) : Finds before (c :: cs) slices
  | argument {before arg cs : List Char} {c : Char} {slices : List Slice}
      (first : isBlank c = false) (length : argumentLength (c :: arg ++ cs) = (c :: arg).length)
      (later : Finds (before ++ c :: arg) cs slices) :
      Finds before (c :: arg ++ cs) (⟨utf8Len before, c :: arg⟩ :: slices)

theorem argumentLength_le (cs : List Char) : argumentLength cs ≤ cs.length := by
  rw [argumentLength]
  split
  · rename_i hopen
    cases hclose : matchingClose cs with
    | none => exact Nat.le_refl _
    | some close =>
        have hlength := congrArg List.length (take_succ_of_matchingClose hopen hclose)
        simp only [List.length_take, List.length_append, List.length_singleton] at hlength
        show close + 1 ≤ cs.length
        omega
  · exact (List.takeWhile_prefix inWord).length_le

/-- An argument is a beginning of the text, and not an empty one. -/
theorem exists_argument {c : Char} (cs : List Char) (first : isBlank c = false) :
    ∃ arg rest, cs = arg ++ rest ∧ argumentLength (c :: arg ++ rest) = (c :: arg).length := by
  obtain ⟨size, hsize⟩ := Nat.exists_eq_succ_of_ne_zero (@argumentLength_pos c cs first).ne'
  have hle := argumentLength_le (c :: cs)
  rw [hsize, List.length_cons] at hle
  refine ⟨cs.take size, cs.drop size, (List.take_append_drop size cs).symm, ?_⟩
  rw [List.cons_append, List.take_append_drop, hsize, List.length_cons, List.length_take,
    Nat.min_eq_left (Nat.le_of_succ_le_succ hle)]

/-- **The cursor comes to the end of every text.** -/
theorem exists_finds (before cs : List Char) : ∃ slices, Finds before cs slices := by
  match cs with
  | [] => exact ⟨[], .finish before⟩
  | c :: cs =>
      by_cases hblank : isBlank c
      · obtain ⟨slices, later⟩ := exists_finds (before ++ [c]) cs
        exact ⟨slices, .blank hblank later⟩
      · have first := Bool.eq_false_iff.mpr hblank
        obtain ⟨arg, rest, rfl, length⟩ := exists_argument cs first
        have hshorter : rest.length < (c :: (arg ++ rest)).length := by
          rw [List.length_cons, List.length_append]
          omega
        obtain ⟨slices, later⟩ := exists_finds (before ++ c :: arg) rest
        exact ⟨_, .argument first length later⟩
termination_by cs.length

theorem Finds.splitArguments_eq {before cs : List Char} {slices : List Slice}
    (h : Finds before cs slices) : splitArguments cs = slices.map Slice.text := by
  induction h with
  | finish => exact splitArguments_nil
  | blank hblank _ ih => rw [splitArguments_blank hblank, ih]
  | argument first length _ ih => rw [splitArguments_append first length, ih, List.map_cons]

/-- **The way through the bytes is the way through the characters.** -/
theorem Finds.slicesFrom_eq {before cs : List Char} {slices : List Slice}
    (h : Finds before cs slices) : slicesFrom (before ++ cs) (utf8Len before) = some slices := by
  induction h with
  | finish before => rw [List.append_nil, slicesFrom_nil]
  | @blank before cs c _ hblank _ ih =>
      rw [List.append_assoc, List.singleton_append] at ih
      rw [slicesFrom_blank hblank, ih]
  | argument first length _ ih =>
      rw [List.append_assoc] at ih
      rw [slicesFrom_argument first length, ih, Option.map_some]

/-! ### Slices and white space -/

/-- From the byte `start` on, the text is made up of the slices, in their order, and of white
space. -/
structure Tiles (text : List Char) (start : Nat) (slices : List Slice) : Prop where
  behind : ∀ slice ∈ slices, start ≤ slice.start
  cut : ∀ slice ∈ slices, slice.StandsIn text ∧ slice.text ≠ []
  ordered : slices.Pairwise fun first second => first.stop ≤ second.start
  blank : ∀ before c rest, text = before ++ c :: rest → start ≤ utf8Len before →
    (∀ slice ∈ slices, ¬ slice.Holds (utf8Len before)) → isBlank c

theorem Tiles.nil (text : List Char) : Tiles text (utf8Len text) [] where
  behind := fun _ hslice => absurd hslice List.not_mem_nil
  cut := fun _ hslice => absurd hslice List.not_mem_nil
  ordered := .nil
  blank := by
    rintro before c rest rfl le -
    exact absurd (lt_utf8Len_append_cons before c rest) (Nat.not_lt.mpr le)

theorem Tiles.add_le {text before part : List Char} {slices : List Slice}
    (h : Tiles text (utf8Len (before ++ part)) slices) :
    ∀ slice ∈ slices, utf8Len before + utf8Len part ≤ slice.start := by
  rw [← String.utf8Len_append]
  exact h.behind

theorem Tiles.of_blank {text before cs : List Char} {c : Char} {slices : List Slice}
    (htext : text = before ++ c :: cs) (hblank : isBlank c)
    (h : Tiles text (utf8Len (before ++ [c])) slices) : Tiles text (utf8Len before) slices where
  behind := fun slice hslice => Nat.le_of_add_right_le (h.add_le slice hslice)
  cut := h.cut
  ordered := h.ordered
  blank := by
    intro xs d ys hd le free
    by_cases hlt : utf8Len xs < utf8Len (before ++ [c])
    · rwa [← eq_of_utf8Len_lt (htext.symm.trans hd) le hlt]
    · exact h.blank xs d ys hd (Nat.not_lt.mp hlt) free

theorem Tiles.of_argument {text before arg cs : List Char} {slices : List Slice}
    (htext : text = before ++ (arg ++ cs)) (hne : arg ≠ [])
    (h : Tiles text (utf8Len (before ++ arg)) slices) :
    Tiles text (utf8Len before) (⟨utf8Len before, arg⟩ :: slices) where
  behind := by
    rw [List.forall_mem_cons]
    exact ⟨Nat.le_refl _, fun slice hslice => Nat.le_of_add_right_le (h.add_le slice hslice)⟩
  cut := List.forall_mem_cons.mpr ⟨⟨⟨before, cs, htext, rfl⟩, hne⟩, h.cut⟩
  ordered := List.pairwise_cons.mpr ⟨h.add_le, h.ordered⟩
  blank := by
    intro xs d ys hd le free
    obtain ⟨hfirst, hfree⟩ := List.forall_mem_cons.mp free
    apply h.blank xs d ys hd _ hfree
    by_contra hlt
    apply hfirst
    refine ⟨le, ?_⟩
    rw [String.utf8Len_append] at hlt
    exact Nat.not_le.mp hlt

/-- **What the cursor does not cut out is white space.** -/
theorem Finds.tiles {before cs : List Char} {slices : List Slice} (h : Finds before cs slices) :
    Tiles (before ++ cs) (utf8Len before) slices := by
  induction h with
  | finish before =>
      rw [List.append_nil]
      exact .nil before
  | blank hblank _ ih =>
      rw [List.append_assoc, List.singleton_append] at ih
      exact .of_blank rfl hblank ih
  | argument _ _ _ ih =>
      rw [List.append_assoc] at ih
      exact .of_argument rfl (List.cons_ne_nil _ _) ih

/-! ### What an argument is -/

/-- No beginning of the text closes more parentheses than it opens. -/
def NeverOverclosed (cs : List Char) : Prop :=
  ∀ xs, xs <+: cs → xs.count ')' ≤ xs.count '('

instance (cs : List Char) : Decidable (NeverOverclosed cs) :=
  decidable_of_iff (∀ xs ∈ cs.inits, xs.count ')' ≤ xs.count '(') (by
    simp only [NeverOverclosed, List.mem_inits])

theorem NeverOverclosed.of_balanced_append {xs ys : List Char} (hb : balanced xs)
    (h : NeverOverclosed (xs ++ ys)) : NeverOverclosed ys := by
  intro zs hzs
  have hall := h (xs ++ zs) ((List.prefix_append_right_inj xs).mpr hzs)
  have hxs := count_eq_of_balanced hb
  rw [List.count_append, List.count_append] at hall
  omega

theorem neverOverclosed_of_balanced {cs : List Char} (h : balanced cs) : NeverOverclosed cs :=
  (balanced_iff.mp h).1

/-- Where no parenthesis is closed that is not open, a word goes up to white space or a parenthesis:
it has no opening parenthesis that a closing one could belong to. -/
theorem NeverOverclosed.inTag_of_mem_takeWhile {cs : List Char} (h : NeverOverclosed cs) :
    ∀ c ∈ cs.takeWhile inWord, inTag c := by
  have hword : ∀ c ∈ cs.takeWhile inWord, inWord c := fun c hc => List.mem_takeWhile_imp hc
  have hopen : (cs.takeWhile inWord).count '(' = 0 :=
    List.count_eq_zero.mpr fun hmem => absurd (hword '(' hmem) (by decide)
  have hclose : ')' ∉ cs.takeWhile inWord := by
    rw [← List.count_eq_zero, ← Nat.le_zero, ← hopen]
    exact h _ (List.takeWhile_prefix inWord)
  intro c hc
  simp only [inTag, hword c hc, Bool.true_and, bne_iff_ne]
  rintro rfl
  exact hclose hc

/-- **An argument is a form, a word, or all that follows a parenthesis that is never closed.** -/
theorem argument_cases {arg cs : List Char} {c : Char} (never : NeverOverclosed (c :: arg ++ cs))
    (first : isBlank c = false) (length : argumentLength (c :: arg ++ cs) = (c :: arg).length) :
    Enclosed (c :: arg) ∨ (Word (c :: arg) ∧ EndsTag cs) ∨
      (c = '(' ∧ matchingClose (c :: arg) = none ∧ cs = []) := by
  rw [argumentLength] at length
  split at length
  · rename_i hopen
    obtain rfl : c = '(' := Option.some.inj hopen
    cases hclose : matchingClose ('(' :: arg ++ cs) with
    | none =>
        rw [hclose] at length
        have hcs : cs = [] := by simpa using length
        rw [hcs, List.append_nil] at hclose
        exact .inr (.inr ⟨rfl, hclose, hcs⟩)
    | some close =>
        rw [hclose] at length
        obtain ⟨inside, ys, hsplit, hinside, rfl⟩ := matchingClose_eq_some_iff.mp hclose
        have hlength : inside.length + 1 = arg.length := by simpa using length
        rw [List.append_cons] at hsplit
        have harg := (List.append_inj hsplit (by simp [hlength])).1
        exact .inl ⟨inside, hinside, by rw [harg]⟩
  · rename_i hopen
    have hstop := head?_dropWhile_stop inWord (c :: arg ++ cs)
    rw [dropWhile_eq_of_length length] at hstop
    refine .inr (.inl ⟨⟨List.cons_ne_nil _ _, ?_⟩, ?_⟩)
    · rw [← takeWhile_eq_of_length length]
      exact never.inTag_of_mem_takeWhile
    · intro d hd
      rw [inTag, hstop d hd, Bool.false_and]

/-- The slice is one form: it goes from a parenthesis to the first place that closes all the
parentheses opened since. -/
def IsForm (text : List Char) (slice : Slice) : Prop :=
  slice.text.head? = some '(' ∧
    ∃ close, IsLeast {i | AllClosed (octets text) slice.start i} close ∧ slice.stop = close + 1

/-- The slice is one word, which goes on neither before it nor behind it. -/
def IsWord (text : List Char) (slice : Slice) : Prop :=
  Word slice.text ∧ ∃ before behind, text = before ++ (slice.text ++ behind) ∧
    slice.start = utf8Len before ∧ (∀ c ∈ before.getLast?, inTag c = false) ∧ EndsTag behind

/-- The slice is what follows a parenthesis that is never closed. -/
def IsUnclosed (text : List Char) (slice : Slice) : Prop :=
  slice.text.head? = some '(' ∧ slice.stop = utf8Len text ∧
    ∀ i, ¬ AllClosed (octets text) slice.start i

theorem Enclosed.isForm {before arg cs : List Char} (h : Enclosed arg) :
    IsForm (before ++ (arg ++ cs)) ⟨utf8Len before, arg⟩ := by
  obtain ⟨inside, hinside, rfl⟩ := h
  have hclose := matchingClose_enclosed hinside cs
  have htake : ('(' :: (inside ++ [')']) ++ cs).take (inside.length + 1) = '(' :: inside := by
    simp
  have hat : closeAt (before ++ ('(' :: (inside ++ [')']) ++ cs)) (utf8Len before) =
      some (utf8Len (before ++ '(' :: inside)) := by
    rw [closeAt_append, hclose, Option.map_some, htake]
  refine ⟨rfl, _, (closeAt_eq_some_iff (getElem?_octets_open _ _)).mp hat, ?_⟩
  have hsize : utf8Len [')'] = 1 := rfl
  simp only [Slice.stop, String.utf8Len_append, String.utf8Len_cons, hsize]
  omega

theorem isUnclosed_of_matchingClose {before arg : List Char}
    (h : matchingClose ('(' :: arg) = none) :
    IsUnclosed (before ++ '(' :: arg) ⟨utf8Len before, '(' :: arg⟩ := by
  refine ⟨rfl, (String.utf8Len_append _ _).symm, ?_⟩
  apply not_allClosed_of_closeAt (getElem?_octets_open before arg)
  rw [closeAt_append, h, Option.map_none]

theorem not_isUnclosed_of_balanced {text : List Char} {slice : Slice} (h : balanced text)
    (hin : slice.StandsIn text) : ¬ IsUnclosed text slice := by
  rintro ⟨hopen, -, never⟩
  obtain ⟨start, arg⟩ := slice
  obtain ⟨before, behind, rfl, rfl⟩ := hin
  cases arg with
  | nil => cases hopen
  | cons c arg =>
      obtain rfl : c = '(' := Option.some.inj hopen
      obtain ⟨i, hi⟩ := exists_allClosed_of_balanced h
      exact never i hi

/-- The cursor does not stand inside a word. -/
def Seam (before cs : List Char) : Prop :=
  (∀ c ∈ before.getLast?, inTag c = false) ∨ EndsTag cs

theorem Seam.concat {before cs : List Char} {c : Char} (h : inTag c = false) :
    Seam (before ++ [c]) cs := by
  left
  intro d hd
  rw [List.getLast?_concat] at hd
  obtain rfl := Option.some.inj hd
  exact h

theorem Enclosed.seam {before arg cs : List Char} (h : Enclosed arg) : Seam (before ++ arg) cs := by
  obtain ⟨inside, -, rfl⟩ := h
  rw [← List.cons_append, ← List.append_assoc]
  exact .concat (by decide)

theorem seam_nil {cs : List Char} : Seam [] cs :=
  .inl fun _ hc => by cases hc

/-- **Every slice is a form, a whole word, or what follows a parenthesis that is never closed.** No
closing parenthesis is left over for a word. -/
theorem Finds.kinds {before cs : List Char} {slices : List Slice} (h : Finds before cs slices)
    (never : NeverOverclosed cs) (seam : Seam before cs) :
    ∀ slice ∈ slices, IsForm (before ++ cs) slice ∨ IsWord (before ++ cs) slice ∨
      IsUnclosed (before ++ cs) slice := by
  induction h with
  | finish => exact fun _ hslice => absurd hslice List.not_mem_nil
  | @blank before cs c _ hblank _ ih =>
      rw [List.append_assoc, List.singleton_append] at ih
      have hb : balanced [c] := balanced_plain fun d hd => by
        rw [List.mem_singleton.mp hd]
        exact ne_paren_of_isBlank hblank
      exact ih (never.of_balanced_append hb) (.concat (inTag_eq_false_of_isBlank hblank))
  | @argument before arg cs c _ first length later ih =>
      rw [List.append_assoc] at ih
      rw [List.forall_mem_cons]
      rcases argument_cases never first length with henclosed | ⟨hword, hends⟩ | ⟨rfl, hclose, rfl⟩
      · refine ⟨.inl henclosed.isForm, ih ?_ henclosed.seam⟩
        exact never.of_balanced_append (balanced_of_enclosed_or_word (.inl henclosed))
      · refine ⟨.inr (.inl ⟨hword, before, cs, rfl, rfl, ?_, hends⟩), ih ?_ (.inr hends)⟩
        · rcases seam with hleft | hright
          · exact hleft
          · have := hright c rfl
            rw [hword.2 c List.mem_cons_self] at this
            cases this
        · exact never.of_balanced_append (balanced_of_enclosed_or_word (.inr hword))
      · rw [List.append_nil]
        refine ⟨.inr (.inr (isUnclosed_of_matchingClose hclose)), ?_⟩
        cases later
        exact fun _ hslice => absurd hslice List.not_mem_nil

/-- In a balanced text there are no others than forms and words. -/
theorem Finds.kinds_of_balanced {text : List Char} {slices : List Slice} (h : Finds [] text slices)
    (hbalanced : balanced text) : ∀ slice ∈ slices, IsForm text slice ∨ IsWord text slice := by
  intro slice hslice
  have never := neverOverclosed_of_balanced hbalanced
  rcases h.kinds never seam_nil slice hslice with hform | hword | hunclosed
  · exact .inl hform
  · exact .inr hword
  · have hin := (h.tiles.cut slice hslice).1
    exact absurd hunclosed (not_isUnclosed_of_balanced hbalanced hin)

/-- **Looking for arguments loses nothing and invents nothing.** The partner of a parenthesis is
the first place where all the parentheses opened since are closed. The cursor comes to the end of
every text and never stands inside a character. What it cuts out are the arguments: slices in order
that do not overlap, with white space everywhere else. In a balanced text each of them is one form,
from a parenthesis to its partner, or one word that could not be longer. So it is wherever no
parenthesis is closed that is not open, except that the last may be what follows a parenthesis that
is never closed. -/
theorem slices_tile_text (text : List Char) :
    (∀ start, (octets text)[start]? = some '(' → ∀ close,
      closeAt text start = some close ↔ IsLeast {i | AllClosed (octets text) start i} close) ∧
    (∀ before cs, text = before ++ cs → closeAt text (utf8Len before) =
      (matchingClose cs).map fun n => utf8Len (before ++ cs.take n)) ∧
    ∃ slices, argumentSlices text = some slices ∧ slices.map Slice.text = splitArguments text ∧
      Tiles text 0 slices ∧
      (balanced text → ∀ slice ∈ slices, IsForm text slice ∨ IsWord text slice) ∧
      (NeverOverclosed text → ∀ slice ∈ slices,
        IsForm text slice ∨ IsWord text slice ∨ IsUnclosed text slice) := by
  obtain ⟨slices, h⟩ := exists_finds [] text
  refine ⟨?_, ?_, slices, h.slicesFrom_eq, h.splitArguments_eq.symm, h.tiles, ?_, ?_⟩
  · intro start hopen close
    exact closeAt_eq_some_iff hopen
  · rintro before cs rfl
    exact closeAt_append before cs
  · exact h.kinds_of_balanced
  · intro never
    exact h.kinds never seam_nil

/-- A word that runs into a form, which runs into another form, and an ideographic space of three
bytes. -/
def adjoining : List Char :=
  "x(wall)(seq (move))\u3000go".toList

theorem slices_tile_text_adjoining :
    ((octets adjoining)[7]? = some '(' ∧ IsLeast {i | AllClosed (octets adjoining) 7 i} 18) ∧
    (adjoining = "x(wall)".toList ++ "(seq (move))\u3000go".toList ∧
      closeAt adjoining (utf8Len "x(wall)".toList) = some 18) ∧
    ∃ slices, argumentSlices adjoining = some slices ∧
      slices.map Slice.text = ["x", "(wall)", "(seq (move))", "go"].map String.toList ∧
      Tiles adjoining 0 slices ∧
      (balanced adjoining ∧ ∀ slice ∈ slices, IsForm adjoining slice ∨ IsWord adjoining slice) ∧
      NeverOverclosed adjoining ∧ ∀ slice ∈ slices,
        IsForm adjoining slice ∨ IsWord adjoining slice ∨ IsUnclosed adjoining slice := by
  obtain ⟨hclose, hat, slices, hslices, hargs, htiles, hkinds, hothers⟩ :=
    slices_tile_text adjoining
  have hbalanced : balanced adjoining := by decide +kernel
  have never : NeverOverclosed adjoining := by decide +kernel
  refine ⟨⟨by decide +kernel, ?_⟩, ⟨by decide +kernel, ?_⟩, slices, hslices, ?_, htiles,
    ⟨hbalanced, hkinds hbalanced⟩, never, hothers never⟩
  · exact (hclose 7 (by decide +kernel) 18).mp (by decide +kernel)
  · rw [hat _ "(seq (move))\u3000go".toList (by decide +kernel)]
    decide +kernel
  · rw [hargs]
    decide +kernel

-- Without its partner, a parenthesis takes all that follows, white space included.
example : argumentSlices "go (seq (move) ".toList =
    some [⟨0, "go".toList⟩, ⟨3, "(seq (move) ".toList⟩] := by
  decide +kernel

end RobotControl.Source
