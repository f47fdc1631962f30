import Mathlib.Data.List.Forall2
import RobotControl.Proofs.Source.Balance

/-!
Taking forms apart.

A form is cut out of raw text by its parentheses and its arguments by where they end. What that
amounts to is said here without positions.

* `splits_iff`: the arguments of a balanced text are its forms and words, in order, with nothing but
  white space around them.
* `splitArguments_append_blanks`: white space behind the last argument does not matter.
* `Form.split?_eq_some_iff`: a form is a tag and a balanced rest in one pair of parentheses, with
  white space where the grammar allows it.
-/

namespace RobotControl.Source

open Text

/-! ### Classes of characters -/

theorem inTag_iff {c : Char} : inTag c ↔ isBlank c = false ∧ c ≠ '(' ∧ c ≠ ')' := by
  simp [inTag, inWord, and_assoc]

theorem inTag_eq_false_iff {c : Char} : inTag c = false ↔ isBlank c ∨ c = '(' ∨ c = ')' := by
  rw [Bool.eq_false_iff, ne_eq, inTag_iff]
  grind

theorem inWord_of_inTag {c : Char} (h : inTag c) : inWord c := by
  rw [inTag, Bool.and_eq_true] at h
  exact h.1

theorem inWord_eq_false_of_isBlank {c : Char} (h : isBlank c) : inWord c = false := by
  simp [inWord, h]

theorem inTag_eq_false_of_isBlank {c : Char} (h : isBlank c) : inTag c = false :=
  inTag_eq_false_iff.mpr (Or.inl h)

theorem plain_of_inTag {cs : List Char} (h : ∀ c ∈ cs, inTag c) : Plain cs :=
  fun c hc => (inTag_iff.mp (h c hc)).2

theorem ne_paren_of_isBlank {c : Char} (h : isBlank c) : c ≠ '(' ∧ c ≠ ')' := by
  constructor
  · rintro rfl
    rw [isBlank_openParen] at h
    cases h
  · rintro rfl
    rw [isBlank_closeParen] at h
    cases h

theorem plain_of_blanks {cs : List Char} (h : Blanks cs) : Plain cs :=
  fun c hc => ne_paren_of_isBlank (h c hc)

theorem balanced_blanks_append {gap cs : List Char} (h : Blanks gap) :
    balanced (gap ++ cs) = balanced cs :=
  balanced_plain_append (plain_of_blanks h)

/-- What stands behind the parentheses in ASCII may be part of a tag. -/
theorem inTag_of_ascii {c : Char} (above : 41 < c.toNat) (below : c.toNat < 0x7F) : inTag c := by
  rw [inTag_iff]
  refine ⟨isBlank_eq_false_of_ascii (by omega) below, ?_, ?_⟩
  · rintro rfl
    exact absurd above (by decide)
  · rintro rfl
    exact absurd above (by decide)

/-- The end of a tag does not depend on the case of its letters. -/
theorem inTag_toLower (c : Char) : inTag c.toLower = inTag c := by
  unfold Char.toLower
  split
  · rename_i capital
    have above : 65 ≤ c.toNat := capital.1
    have below : c.toNat ≤ 90 := capital.2
    have hlower : (c.val + 32).toNat = c.toNat + 32 := by
      rw [UInt32.toNat_add]
      show (c.toNat + 32) % 2 ^ 32 = c.toNat + 32
      omega
    have hcapital : inTag c := inTag_of_ascii (by omega) (by omega)
    rw [hcapital]
    apply inTag_of_ascii
    · show 41 < (c.val + 32).toNat
      omega
    · show (c.val + 32).toNat < 0x7F
      omega
  · rfl

/-! ### Arguments -/

/-- One pair of parentheses around a balanced text. -/
def Enclosed (cs : List Char) : Prop :=
  ∃ inside, balanced inside ∧ cs = '(' :: (inside ++ [')'])

/-- One or more characters, none of them white space or a parenthesis. -/
def Word (cs : List Char) : Prop :=
  cs ≠ [] ∧ ∀ c ∈ cs, inTag c

instance (cs : List Char) : Decidable (Word cs) :=
  decidable_of_iff (cs ≠ [] ∧ cs.all inTag) (and_congr_right' List.all_eq_true)

/-- The text consists of the arguments in order, with nothing but white space before, between and
behind them. A word goes on as long as it can. -/
inductive Splits : List Char → List (List Char) → Prop
  | nil {cs : List Char} (blanks : Blanks cs) : Splits cs []
  | form {gap form cs : List Char} {args : List (List Char)} (blanks : Blanks gap)
      (enclosed : Enclosed form) (rest : Splits cs args) :
      Splits (gap ++ (form ++ cs)) (form :: args)
  | word {gap word cs : List Char} {args : List (List Char)} (blanks : Blanks gap)
      (isWord : Word word) (stop : ∀ c ∈ cs.head?, inWord c = false) (rest : Splits cs args) :
      Splits (gap ++ (word ++ cs)) (word :: args)

theorem Enclosed.balanced_append {form : List Char} (h : Enclosed form) (cs : List Char) :
    balanced (form ++ cs) = balanced cs := by
  obtain ⟨inside, hinside, rfl⟩ := h
  rw [List.cons_append, List.append_assoc]
  exact balanced_enclosed hinside

theorem Word.balanced_append {word : List Char} (h : Word word) (cs : List Char) :
    balanced (word ++ cs) = balanced cs :=
  balanced_plain_append (plain_of_inTag h.2)

theorem Word.head?_append {word : List Char} (h : Word word) (cs : List Char) :
    ∀ c ∈ (word ++ cs).head?, isBlank c = false := by
  obtain ⟨hne, hword⟩ := h
  cases word with
  | nil => contradiction
  | cons d word =>
      intro c hc
      obtain rfl : d = c := Option.some.inj hc
      exact (inTag_iff.mp (hword d List.mem_cons_self)).1

/-! ### Where an argument ends -/

theorem splitArguments_nil : splitArguments [] = [] := by
  rw [splitArguments]

theorem splitArguments_blank {c : Char} {cs : List Char} (h : isBlank c) :
    splitArguments (c :: cs) = splitArguments cs := by
  rw [splitArguments, if_pos h]

theorem splitArguments_blanks_append {gap cs : List Char} (h : Blanks gap) :
    splitArguments (gap ++ cs) = splitArguments cs := by
  induction gap with
  | nil => rfl
  | cons c gap ih =>
      rw [List.cons_append, splitArguments_blank (h c List.mem_cons_self)]
      exact ih fun d hd => h d (List.mem_cons_of_mem c hd)

theorem splitArguments_blanks {gap : List Char} (h : Blanks gap) : splitArguments gap = [] := by
  rw [← List.append_nil gap, splitArguments_blanks_append h, splitArguments_nil]

/-- An argument as long as `argumentLength` says is the first one. -/
theorem splitArguments_append {c : Char} {arg cs : List Char} (first : isBlank c = false)
    (length : argumentLength (c :: arg ++ cs) = (c :: arg).length) :
    splitArguments (c :: arg ++ cs) = (c :: arg) :: splitArguments cs := by
  rw [List.cons_append] at length ⊢
  rw [splitArguments, if_neg (by simp [first]), length, ← List.cons_append, List.take_left,
    List.drop_left]

/-- The partner of the first parenthesis is the last one, whatever follows. -/
theorem matchingClose_enclosed {inside : List Char} (h : balanced inside) (cs : List Char) :
    matchingClose ('(' :: (inside ++ [')']) ++ cs) = some (inside.length + 1) := by
  rw [List.cons_append, matchingClose_eq_some_iff]
  exact ⟨inside, cs, by simp, h, rfl⟩

theorem Enclosed.splitArguments_append {form : List Char} (h : Enclosed form) (cs : List Char) :
    splitArguments (form ++ cs) = form :: splitArguments cs := by
  obtain ⟨inside, hinside, rfl⟩ := h
  apply Source.splitArguments_append isBlank_openParen
  have hclose := matchingClose_enclosed hinside cs
  have hopen : ('(' :: (inside ++ [')']) ++ cs).head? = some '(' := rfl
  rw [argumentLength, if_pos hopen, hclose]
  simp

theorem Word.splitArguments_append {word cs : List Char} (h : Word word)
    (stop : ∀ c ∈ cs.head?, inWord c = false) :
    splitArguments (word ++ cs) = word :: splitArguments cs := by
  obtain ⟨hne, hword⟩ := h
  cases word with
  | nil => contradiction
  | cons c word =>
      have hc := inTag_iff.mp (hword c List.mem_cons_self)
      apply Source.splitArguments_append hc.1
      rw [argumentLength, if_neg]
      · rw [takeWhile_append_stop (fun d hd => inWord_of_inTag (hword d hd)) stop]
      · intro heq
        exact hc.2.1 (Option.some.inj heq)

/-! ### The arguments of a balanced text -/

theorem Splits.splitArguments_eq {cs : List Char} {args : List (List Char)} (h : Splits cs args) :
    splitArguments cs = args := by
  induction h with
  | nil blanks => exact splitArguments_blanks blanks
  | form blanks enclosed rest ih =>
      rw [splitArguments_blanks_append blanks, enclosed.splitArguments_append, ih]
  | word blanks isWord stop rest ih =>
      rw [splitArguments_blanks_append blanks, isWord.splitArguments_append stop, ih]

theorem Splits.balanced {cs : List Char} {args : List (List Char)} (h : Splits cs args) :
    balanced cs := by
  induction h with
  | nil blanks => exact balanced_plain (plain_of_blanks blanks)
  | form blanks enclosed rest ih =>
      rwa [balanced_blanks_append blanks, enclosed.balanced_append]
  | word blanks isWord stop rest ih =>
      rwa [balanced_blanks_append blanks, isWord.balanced_append]

theorem Splits.blanks_append {gap cs : List Char} {args : List (List Char)} (hg : Blanks gap)
    (h : Splits cs args) : Splits (gap ++ cs) args := by
  cases h with
  | nil blanks => exact .nil (hg.append blanks)
  | form blanks enclosed rest =>
      rw [← List.append_assoc]
      exact .form (hg.append blanks) enclosed rest
  | word blanks isWord stop rest =>
      rw [← List.append_assoc]
      exact .word (hg.append blanks) isWord stop rest

theorem Splits.append_blanks {behind cs : List Char} {args : List (List Char)} (h : Splits cs args)
    (hb : Blanks behind) : Splits (cs ++ behind) args := by
  induction h with
  | nil blanks => exact .nil (blanks.append hb)
  | form blanks enclosed rest ih =>
      rw [List.append_assoc, List.append_assoc]
      exact .form blanks enclosed ih
  | @word gap word cs args blanks isWord stop rest ih =>
      rw [List.append_assoc, List.append_assoc]
      refine .word blanks isWord ?_ ih
      cases cs with
      | nil => exact fun c hc => inWord_eq_false_of_isBlank (hb c (List.mem_of_mem_head? hc))
      | cons d cs => exact stop

/-- A word of a balanced text holds no parenthesis: one that closes would have no partner. -/
theorem inTag_of_mem_takeWhile {cs : List Char} (h : balanced cs) :
    ∀ c ∈ cs.takeWhile inWord, inTag c := by
  induction cs with
  | nil => exact fun c hc => absurd hc List.not_mem_nil
  | cons d cs ih =>
      intro c hc
      rw [List.takeWhile_cons] at hc
      by_cases hd : inWord d
      · rw [if_pos hd] at hc
        have hclose : d ≠ ')' := by
          rintro rfl
          exact absurd h (by simp [Source.balanced])
        have htag : inTag d := by simp [inTag, hd, hclose]
        have hcs : Source.balanced cs := by
          rw [Source.balanced, balancedFrom_other (inTag_iff.mp htag).2] at h
          exact h
        rcases List.mem_cons.mp hc with rfl | hmem
        · exact htag
        · exact ih hcs c hmem
      · rw [if_neg hd] at hc
        cases hc

/-- **A balanced text consists of the arguments found in it.** -/
theorem splits_splitArguments (cs : List Char) (h : balanced cs) :
    Splits cs (splitArguments cs) := by
  match cs with
  | [] =>
      rw [splitArguments_nil]
      exact .nil Blanks.nil
  | c :: cs =>
      by_cases hb : isBlank c
      · have hgap : Blanks [c] := by
          intro d hd
          rwa [List.mem_singleton.mp hd]
        have hcs : balanced cs := by rwa [← balanced_blanks_append hgap]
        rw [splitArguments_blank hb]
        exact (splits_splitArguments cs hcs).blanks_append hgap
      · by_cases ho : c = '('
        · subst ho
          obtain ⟨inside, ys, hcs, hinside, hys, -⟩ := exists_partner h
          have henclosed : Enclosed ('(' :: (inside ++ [')'])) := ⟨inside, hinside, rfl⟩
          have hsplit : '(' :: cs = '(' :: (inside ++ [')']) ++ ys := by simp [hcs]
          have hshorter : ys.length < ('(' :: cs).length := by
            rw [hsplit, List.cons_append, List.length_cons, List.length_append]
            omega
          rw [hsplit, henclosed.splitArguments_append]
          exact .form Blanks.nil henclosed (splits_splitArguments ys hys)
        · have hc : inWord c := by simp [inWord, hb, ho]
          have hword : Word ((c :: cs).takeWhile inWord) :=
            ⟨by simp [hc], inTag_of_mem_takeWhile h⟩
          have hstop := head?_dropWhile_stop inWord (c :: cs)
          have hrest : balanced ((c :: cs).dropWhile inWord) := by
            rwa [← hword.balanced_append, List.takeWhile_append_dropWhile]
          have hshorter : ((c :: cs).dropWhile inWord).length < (c :: cs).length := by
            have := List.length_dropWhile_le inWord cs
            rw [List.dropWhile_cons, if_pos hc, List.length_cons]
            omega
          have hsplits := splits_splitArguments _ hrest
          rw [← List.takeWhile_append_dropWhile (p := inWord) (l := c :: cs),
            hword.splitArguments_append hstop]
          exact .word Blanks.nil hword hstop hsplits
termination_by cs.length
decreasing_by
  · exact Nat.lt_succ_self cs.length
  · exact hshorter
  · exact hshorter

/-- **The arguments of a balanced text are its forms and words.** -/
theorem splits_iff {cs : List Char} {args : List (List Char)} :
    Splits cs args ↔ balanced cs ∧ splitArguments cs = args := by
  constructor
  · intro h
    exact ⟨h.balanced, h.splitArguments_eq⟩
  · rintro ⟨h, rfl⟩
    exact splits_splitArguments cs h

theorem splitArguments_append_blanks {cs behind : List Char} (h : balanced cs)
    (hb : Blanks behind) : splitArguments (cs ++ behind) = splitArguments cs :=
  ((splits_splitArguments cs h).append_blanks hb).splitArguments_eq

/-- The part of a text that one argument takes up, white space in front of it included. -/
def Argument (part arg : List Char) : Prop :=
  (Enclosed arg ∨ Word arg) ∧ ∃ gap, Blanks gap ∧ part = gap ++ arg

/-- A text splits into a part for each argument and the white space behind the last. -/
theorem Splits.exists_parts {cs : List Char} {args : List (List Char)} (h : Splits cs args) :
    ∃ parts behind, Blanks behind ∧ cs = parts.flatten ++ behind ∧
      List.Forall₂ Argument parts args := by
  induction h with
  | @nil cs blanks => exact ⟨[], cs, blanks, rfl, .nil⟩
  | @form gap form cs args blanks enclosed rest ih =>
      obtain ⟨parts, behind, hb, rfl, hparts⟩ := ih
      have hform : Argument (gap ++ form) form := ⟨.inl enclosed, gap, blanks, rfl⟩
      refine ⟨(gap ++ form) :: parts, behind, hb, ?_, .cons hform hparts⟩
      simp only [List.flatten_cons, List.append_assoc]
  | @word gap word cs args blanks isWord stop rest ih =>
      obtain ⟨parts, behind, hb, rfl, hparts⟩ := ih
      refine ⟨(gap ++ word) :: parts, behind, hb, ?_, .cons ⟨.inr isWord, gap, blanks, rfl⟩ hparts⟩
      simp only [List.flatten_cons, List.append_assoc]

/-! ### Whole forms -/

/-- The text is one form with the tag `word`, in any case, and `inside` behind it. Blanks may stand
around the parentheses, before the tag and before the closing parenthesis. -/
def Framed (word : String) (inside cs : List Char) : Prop :=
  ∃ before gap tag after behind, Blanks before ∧ Blanks gap ∧ Blanks after ∧ Blanks behind ∧
    tag.map Char.toLower = word.toList ∧
    cs = before ++ ('(' :: (gap ++ (tag ++ (inside ++ after)) ++ [')']) ++ behind)

/-- The text does not continue a tag. -/
def EndsTag (cs : List Char) : Prop :=
  ∀ c ∈ cs.head?, inTag c = false

theorem EndsTag.nil : EndsTag [] := by
  intro c hc
  cases hc

/-- White space ends a tag. -/
theorem endsTag_blanks_append {gap : List Char} (h : Blanks gap) (hne : gap ≠ []) (cs : List Char) :
    EndsTag (gap ++ cs) := by
  cases gap with
  | nil => contradiction
  | cons c gap =>
      intro d hd
      obtain rfl : c = d := Option.some.inj hd
      exact inTag_eq_false_of_isBlank (h c List.mem_cons_self)

theorem EndsTag.append_blanks {cs after : List Char} (h : EndsTag cs) (ha : Blanks after) :
    EndsTag (cs ++ after) := by
  cases cs with
  | nil => exact fun c hc => inTag_eq_false_of_isBlank (ha c (List.mem_of_mem_head? hc))
  | cons c cs => exact h

theorem EndsTag.of_append {cs ys : List Char} (h : EndsTag (cs ++ ys)) : EndsTag cs := by
  cases cs with
  | nil => exact EndsTag.nil
  | cons c cs => exact h

/-- A tag in any case is a word if its spelling in small letters is. -/
theorem Word.of_map_toLower {tag word : List Char} (h : Word word)
    (heq : tag.map Char.toLower = word) : Word tag := by
  subst heq
  constructor
  · rintro rfl
    exact h.1 rfl
  · intro c hc
    rw [← inTag_toLower]
    exact h.2 _ (List.mem_map_of_mem hc)

theorem Word.map_toLower {tag : List Char} (h : Word tag) : Word (tag.map Char.toLower) := by
  constructor
  · rw [ne_eq, List.map_eq_nil_iff]
    exact h.1
  · intro c hc
    obtain ⟨d, hd, rfl⟩ := List.mem_map.mp hc
    rw [inTag_toLower]
    exact h.2 d hd

/-- Trimming a form leaves its parentheses. -/
theorem trim_parenthesized {before body behind : List Char} (hb : Blanks before)
    (he : Blanks behind) :
    trim (before ++ ('(' :: (body ++ [')']) ++ behind)) = '(' :: (body ++ [')']) := by
  apply trim_surrounded hb he
  · intro c hc
    obtain rfl : '(' = c := Option.some.inj hc
    exact isBlank_openParen
  · intro c hc
    rw [← List.cons_append, List.getLast?_concat] at hc
    obtain rfl : ')' = c := Option.some.inj hc
    exact isBlank_closeParen

/-- The first and the last character of a text are partners when the text is one form. -/
theorem matchingClose_last_iff {cs : List Char} :
    (cs.head? = some '(' ∧ matchingClose cs = some (cs.length - 1)) ↔ Enclosed cs := by
  constructor
  · rintro ⟨hhead, hclose⟩
    cases cs with
    | nil => cases hhead
    | cons c cs =>
        obtain rfl : c = '(' := Option.some.inj hhead
        obtain ⟨inside, ys, rfl, hinside, hlen⟩ := matchingClose_eq_some_iff.mp hclose
        have hys : ys = [] := by
          rw [← List.length_eq_zero_iff]
          simp only [List.length_cons, List.length_append] at hlen
          omega
        subst hys
        exact ⟨inside, hinside, rfl⟩
  · rintro ⟨inside, hinside, rfl⟩
    refine ⟨rfl, matchingClose_eq_some_iff.mpr ⟨inside, [], rfl, hinside, ?_⟩⟩
    simp

/-- What is taken apart is one pair of parentheses. -/
theorem Form.exists_of_split? {cs : List Char} {form : Form} (h : Form.split? cs = some form) :
    ∃ before body behind, Blanks before ∧ Blanks behind ∧ balanced body ∧
      cs = before ++ ('(' :: (body ++ [')']) ++ behind) := by
  obtain ⟨before, behind, hb, he, hcs⟩ := exists_eq_append_trim cs
  rw [Form.split?] at h
  split at h
  · rename_i hparens
    obtain ⟨body, hbody, heq⟩ := matchingClose_last_iff.mp hparens
    rw [heq] at hcs
    exact ⟨before, body, behind, hb, he, hbody, hcs⟩
  · cases h

/-- The tag is the first word between the parentheses; the arguments are behind it. -/
theorem Form.split?_parenthesized {before body behind : List Char} (hb : Blanks before)
    (he : Blanks behind) (hbody : balanced body) :
    Form.split? (before ++ ('(' :: (body ++ [')']) ++ behind)) =
      if ((skipBlanks body).takeWhile inTag).isEmpty then none
      else some ⟨'(' :: (body ++ [')']),
        String.ofList (((skipBlanks body).takeWhile inTag).map Char.toLower),
        splitArguments ((skipBlanks body).dropWhile inTag)⟩ := by
  have hparens := matchingClose_last_iff.mpr ⟨body, hbody, rfl⟩
  have hinner : (('(' :: (body ++ [')'])).drop 1).dropLast = body := List.dropLast_concat
  simp only [Form.split?, trim_parenthesized hb he, if_pos hparens, hinner]

/-- **A form is a tag and a balanced rest in one pair of parentheses**, and the rest holds its
arguments. -/
theorem Form.split?_eq_some_iff {cs : List Char} {form : Form} :
    Form.split? cs = some form ↔
      ∃ inside, Framed form.tag inside cs ∧ Word form.tag.toList ∧ balanced inside ∧
        EndsTag inside ∧ form.text = trim cs ∧ form.arguments = splitArguments inside := by
  constructor
  · intro h
    obtain ⟨before, body, behind, hb, he, hbody, rfl⟩ := Form.exists_of_split? h
    rw [Form.split?_parenthesized hb he hbody] at h
    split at h
    · cases h
    · rename_i hne
      obtain rfl := Option.some.inj h
      have hword : Word ((skipBlanks body).takeWhile inTag) :=
        ⟨by simpa using hne, fun c hc => List.mem_takeWhile_imp hc⟩
      have hsplit : body = body.takeWhile isBlank ++ ((skipBlanks body).takeWhile inTag ++
          (skipBlanks body).dropWhile inTag) := by
        rw [List.takeWhile_append_dropWhile, skipBlanks, List.takeWhile_append_dropWhile]
      refine ⟨(skipBlanks body).dropWhile inTag, ⟨before, body.takeWhile isBlank, _, [], behind, hb,
        blanks_takeWhile body, Blanks.nil, he, String.toList_ofList.symm, ?_⟩, ?_, ?_,
        head?_dropWhile_stop inTag _, (trim_parenthesized hb he).symm, rfl⟩
      · rw [List.append_nil, ← hsplit]
      · rw [String.toList_ofList]
        exact hword.map_toLower
      · rwa [hsplit, balanced_blanks_append (blanks_takeWhile body), hword.balanced_append] at hbody
  · rintro ⟨inside, ⟨before, gap, tag, after, behind, hb, hg, ha, he, htag, rfl⟩, hword, hinside,
      hends, htext, hargs⟩
    have hword' := hword.of_map_toLower htag
    have hbody : balanced (gap ++ (tag ++ (inside ++ after))) := by
      rw [balanced_blanks_append hg, hword'.balanced_append, balanced_append hinside]
      exact balanced_plain (plain_of_blanks ha)
    have hinner : skipBlanks (gap ++ (tag ++ (inside ++ after))) = tag ++ (inside ++ after) := by
      rw [skipBlanks_append hg]
      exact skipBlanks_eq_self (hword'.head?_append _)
    have hends' := hends.append_blanks ha
    rw [Form.split?_parenthesized hb he hbody, hinner, takeWhile_append_stop hword'.2 hends',
      dropWhile_append_stop hword'.2 hends', htag, String.ofList_toList,
      splitArguments_append_blanks hinside ha, ← hargs, ← trim_parenthesized hb he, ← htext,
      if_neg (by simpa using hword'.1)]

end RobotControl.Source
