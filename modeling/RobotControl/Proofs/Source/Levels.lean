import RobotControl.Proofs.Source.Productions

/-!
How deep forms may nest.

A reader spends a level on every text that it is handed, and a text that it is handed may be a form
or a bare word. So the levels last for the parentheses of a text, and what is read does not depend on
how many more there are; but for a word inside as many forms as there are levels none is left, and
the word is taken for a form too many before it is looked at.

* `readCondition_agree`, `readProgram_agree`: with enough levels for the parentheses, readers with
  different levels agree, but for a word in the deepest parentheses.
* `readCondition_of_lt`, `readProgram_of_lt`: with one level to spare they are the same.
* `tooDeep_reports_nesting`: what the limit of 256 levels does to whole texts.
* `tooDeep_nestedWord`: a text without a form too many that is refused as too deep.
-/

namespace RobotControl

open Source Text

/-- A word was taken for a form that is too deep, where it is no form of the kind expected. -/
inductive Source.WordTooDeep : SyntaxError → SyntaxError → Prop where
  | intro (expected : Production) {word : List Char} (isWord : Word word) :
      WordTooDeep (.tooDeep maxDepth) (.unrecognized expected (String.ofList word))

namespace Source

/-! ### Words -/

/-- A word has nothing around it to trim. -/
theorem Word.trim_eq {word : List Char} (h : Word word) : trim word = word := by
  have hne (c : Char) (hc : c ∈ word) : isBlank c = false := (inTag_iff.mp (h.2 c hc)).1
  have htrim : trim ([] ++ (word ++ [])) = word := by
    apply trim_surrounded Blanks.nil Blanks.nil
    · exact fun c hc => hne c (List.mem_of_mem_head? hc)
    · exact fun c hc => hne c (List.mem_of_getLast? hc)
  rwa [List.nil_append, List.append_nil] at htrim

theorem openForm_of_word {expected : Production} {word : List Char} (h : Word word) :
    openForm expected word = .error (.unrecognized expected (String.ofList word)) := by
  cases hopen : openForm expected word with
  | ok form =>
      -- A form has a pair of parentheses, and a word has none.
      have hplain : '(' ∉ word := fun hmem => (plain_of_inTag h.2 '(' hmem).1 rfl
      obtain ⟨k, hk, -⟩ := nestsWithin_of_openForm hopen (NestsWithin.of_not_mem (n := 0) hplain)
      cases hk
  | error e =>
      rcases fault_of_openForm hopen with ⟨hblanks, -⟩ | ⟨-, rfl⟩
      · exact absurd hblanks (not_blanks_of_enclosed_or_word (.inr h))
      · rw [h.trim_eq]

/-- An argument without parentheses is a word. -/
theorem word_of_nestsWithin_zero {cs : List Char} (h : Enclosed cs ∨ Word cs)
    (hn : NestsWithin 0 cs) : Word cs := by
  rcases h with ⟨inside, hinside, rfl⟩ | h
  · obtain ⟨k, hk, -⟩ := (NestsWithin.enclosed_iff hinside).mp hn
    cases hk
  · exact h

/-- Where no level is left, a word is too deep; where one is left, it is not recognized. -/
theorem agree_of_word {α : Type} {P : SyntaxError → SyntaxError → Prop} {expected : Production}
    {word : List Char} (h : Word word) (hP : ∀ e e', WordTooDeep e e' → P e e')
    {f : Form → Except SyntaxError α} :
    Agree SyntaxError.OfForm P (.error (tooDeepFor expected word))
      (openForm expected word >>= f) := by
  rw [tooDeepFor_of_not_blanks (not_blanks_of_enclosed_or_word (.inr h)), openForm_of_word h]
  exact .paired (hP _ _ (.intro expected h))

/-! ### Different levels -/

section Agreement

variable {n levels more : Nat} {cs : List Char}

/-- Nesting within the levels that are left, and something to nest in if there are none: what is
asked of a text that a reader is handed. -/
structure Fits (n levels : Nat) (cs : List Char) : Prop where
  nests : NestsWithin n cs
  le : n ≤ levels
  not_blanks : ¬ Blanks cs
  word : levels = 0 → Word cs

/-- The arguments of a form fit one level further in, with as many levels to spare. -/
theorem Fits.arguments {expected : Production} {form : Form} (h : Fits n (levels + 1) cs)
    (hopen : openForm expected cs = .ok form) :
    ∃ k, n = k + 1 ∧ ∀ arg ∈ form.arguments, Fits k levels arg := by
  obtain ⟨k, rfl, hargs⟩ := nestsWithin_of_openForm hopen h.nests
  have hk := Nat.le_of_succ_le_succ h.le
  refine ⟨k, rfl, fun arg harg => ?_⟩
  have hkind := argument_of_openForm hopen arg harg
  refine ⟨hargs arg harg, hk, not_blanks_of_enclosed_or_word hkind, ?_⟩
  rintro rfl
  rw [Nat.le_zero.mp hk] at hargs
  exact word_of_nestsWithin_zero hkind (hargs arg harg)

/-- **Readers of conditions with different levels left agree**, but for a word in the deepest
parentheses where no level is to spare. -/
theorem readCondition_agree (h : Fits n levels cs) (le : levels ≤ more) :
    Agree SyntaxError.OfForm (fun e e' => n = levels ∧ WordTooDeep e e') (readCondition levels cs)
      (readCondition (more + 1) cs) := by
  rw [readCondition_succ]
  induction levels generalizing n more cs with
  | zero =>
      rw [readCondition]
      exact agree_of_word (h.word rfl) fun _ _ he => ⟨Nat.le_zero.mp h.le, he⟩
  | succ levels ih =>
      obtain ⟨more, rfl⟩ := Nat.exists_eq_add_of_le' le
      rw [readCondition_succ]
      apply agree_of_openForm h.not_blanks (fun _ => id)
      intro form hopen
      obtain ⟨k, rfl, hargs⟩ := h.arguments hopen
      simp only [Nat.add_right_cancel_iff]
      apply (agreement _ _ fun _ => id).toCondition
      intro arg harg
      rw [← Nat.add_assoc, readCondition_succ]
      exact ih (hargs arg harg) (Nat.le_add_left levels more)

/-- **Readers of programs with different levels left agree**, but for a word in the deepest
parentheses where no level is to spare. -/
theorem readProgram_agree (h : Fits n levels cs) (le : levels ≤ more) :
    Agree SyntaxError.OfForm (fun e e' => n = levels ∧ WordTooDeep e e') (readProgram levels cs)
      (readProgram (more + 1) cs) := by
  rw [readProgram_succ]
  induction levels generalizing n more cs with
  | zero =>
      rw [readProgram]
      exact agree_of_word (h.word rfl) fun _ _ he => ⟨Nat.le_zero.mp h.le, he⟩
  | succ levels ih =>
      obtain ⟨more, rfl⟩ := Nat.exists_eq_add_of_le' le
      rw [readProgram_succ]
      apply agree_of_openForm h.not_blanks (fun _ => id)
      intro form hopen
      obtain ⟨k, rfl, hargs⟩ := h.arguments hopen
      simp only [Nat.add_right_cancel_iff]
      apply (agreement _ _ fun _ => id).toProgram
      · intro arg harg
        exact readCondition_agree (hargs arg harg) (Nat.le_add_left levels more)
      · intro arg harg
        rw [← Nat.add_assoc, readProgram_succ]
        exact ih (hargs arg harg) (Nat.le_add_left levels more)

/-- With a level to spare, more of them change nothing. -/
theorem Agree.eq_of_lt {α : Type} {x y : Except SyntaxError α}
    (h : Agree SyntaxError.OfForm (fun e e' => n = levels ∧ WordTooDeep e e') x y)
    (lt : n < levels) : x = y := by
  cases h with
  | same => rfl
  | paired pair => exact absurd pair.1 (Nat.ne_of_lt lt)

/-- Readers that agree on every text that fits are the same where a level is to spare. -/
theorem eq_of_agree {α : Type} {expected : Production}
    {reader : Nat → List Char → Except SyntaxError α}
    (agree : ∀ {k}, Fits n levels cs → levels ≤ k → Agree SyntaxError.OfForm
      (fun e e' => n = levels ∧ WordTooDeep e e') (reader levels cs) (reader (k + 1) cs))
    (blank : ∀ {k}, Blanks cs → reader k cs = .error (.empty expected))
    (h : NestsWithin n cs) (lt : n < levels) (le : levels ≤ more) :
    reader levels cs = reader more cs := by
  by_cases hblanks : Blanks cs
  · rw [blank hblanks, blank hblanks]
  · rcases Nat.eq_or_lt_of_le le with rfl | hmore
    · rfl
    · obtain ⟨k, rfl⟩ := Nat.exists_eq_add_of_lt hmore
      have fits : Fits n levels cs := ⟨h, lt.le, hblanks, fun hzero => by omega⟩
      exact (agree fits (Nat.le_add_right levels k)).eq_of_lt lt

theorem readCondition_of_lt (h : NestsWithin n cs) (lt : n < levels) (le : levels ≤ more) :
    readCondition levels cs = readCondition more cs :=
  eq_of_agree readCondition_agree readCondition_of_blanks h lt le

theorem readProgram_of_lt (h : NestsWithin n cs) (lt : n < levels) (le : levels ≤ more) :
    readProgram levels cs = readProgram more cs :=
  eq_of_agree readProgram_agree readProgram_of_blanks h lt le

end Agreement

/-! ### Whole texts -/

/-- The answer with 256 levels beside the answer without a limit. They are the same, and not that the
text is too deep; or a word inside 256 forms is too deep in the one and not recognized in the other. -/
inductive Limited {α : Type} (cs : List Char) :
    Except SyntaxError α → Except SyntaxError α → Prop where
  | same {x : Except SyntaxError α} (fault : ∀ limit, x ≠ .error (.tooDeep limit)) : Limited cs x x
  | word (expected : Production) {word : List Char} (deep : ¬ NestsWithin 255 cs)
      (isWord : Word word) : Limited cs (.error (.tooDeep 256))
        (.error (.unrecognized expected (String.ofList word)))

theorem Agree.limited {α : Type} {n : Nat} {cs : List Char} {x y : Except SyntaxError α}
    (h : Agree SyntaxError.OfForm (fun e e' => n = 256 ∧ WordTooDeep e e') x y)
    (deep : n = 256 → ¬ NestsWithin 255 cs) : Limited cs x y := by
  cases h with
  | same faults => exact .same fun limit => faults (.tooDeep limit)
  | paired pair =>
      obtain ⟨hn, ⟨expected, isWord⟩⟩ := pair
      exact .word expected (deep hn) isWord

/-- Readers that agree on every text that fits answer a whole text alike, but for a word inside 256
forms. -/
theorem limited_of_agree {α : Type} {expected : Production}
    {reader : Nat → List Char → Except SyntaxError α} {cs : List Char}
    (agree : ∀ {n}, Fits n 256 cs → Agree SyntaxError.OfForm
      (fun e e' => n = 256 ∧ WordTooDeep e e') (reader 256 cs) (reader 257 cs))
    (blank : ∀ {levels}, Blanks cs → reader levels cs = .error (.empty expected))
    (h : NestsWithin 256 cs) :
    Limited cs (checkBalance cs >>= fun _ => reader 256 cs)
      (checkBalance cs >>= fun _ => reader 257 cs) := by
  rw [checkBalance]
  by_cases hbalanced : balanced cs
  · rw [if_pos hbalanced]
    show Limited cs (reader 256 cs) (reader 257 cs)
    by_cases hblanks : Blanks cs
    · rw [blank hblanks, blank hblanks]
      exact .same fun limit hlimit => by cases hlimit
    · have fits {n : Nat} (hn : NestsWithin n cs) (le : n ≤ 256) : Fits n 256 cs :=
        ⟨hn, le, hblanks, fun hzero => by cases hzero⟩
      by_cases hspare : NestsWithin 255 cs
      · exact (agree (fits hspare (by omega))).limited fun heq => by omega
      · exact (agree (fits h le_rfl)).limited fun _ => hspare
  · rw [if_neg hbalanced]
    exact .same fun limit hlimit => by cases hlimit

theorem Limited.not_nestsWithin {α : Type} {cs : List Char} {x y : Except SyntaxError α}
    (h : Limited cs x y) {limit : Nat} (hx : x = .error (.tooDeep limit)) :
    ¬ NestsWithin 255 cs := by
  cases h with
  | same fault => exact absurd hx (fault limit)
  | word _ deep _ => exact deep

end Source

/-- Reads a whole text as a program, with so many levels for its forms. -/
def Program.readWithin (levels : Nat) (text : String) : Except SyntaxError Program := do
  checkBalance text.toList
  readProgram levels text.toList

/-- Reads a whole text as a condition, with so many levels for its forms. -/
def Condition.readWithin (levels : Nat) (text : String) : Except SyntaxError Condition := do
  checkBalance text.toList
  readCondition levels text.toList

/-- **What the limit of 256 levels does.** A text whose parentheses nest within 256 levels has one
answer for all larger limits, and has it with 256 levels too, but for a word inside 256 forms, which
is then said to be too deep instead of not recognized. So a text that is too deep nests more than 255
levels deep. -/
theorem tooDeep_reports_nesting (text : String) :
    ((∀ limit, Program.read text = .error (.tooDeep limit) → ¬ NestsWithin 255 text.toList) ∧
        ∀ limit, Condition.read text = .error (.tooDeep limit) → ¬ NestsWithin 255 text.toList) ∧
      (NestsWithin 256 text.toList →
        (Limited text.toList (Program.read text) (Program.readWithin 257 text) ∧
          Limited text.toList (Condition.read text) (Condition.readWithin 257 text)) ∧
        ∀ levels, 256 < levels → Program.readWithin levels text = Program.readWithin 257 text ∧
          Condition.readWithin levels text = Condition.readWithin 257 text) := by
  have limited (h : NestsWithin 256 text.toList) :
      Limited text.toList (Program.read text) (Program.readWithin 257 text) ∧
        Limited text.toList (Condition.read text) (Condition.readWithin 257 text) :=
    ⟨limited_of_agree (fun fits => readProgram_agree fits le_rfl) readProgram_of_blanks h,
      limited_of_agree (fun fits => readCondition_agree fits le_rfl) readCondition_of_blanks h⟩
  refine ⟨⟨?_, ?_⟩, ?_⟩
  · intro limit hread hspare
    exact (limited (hspare.mono (by omega))).1.not_nestsWithin hread hspare
  · intro limit hread hspare
    exact (limited (hspare.mono (by omega))).2.not_nestsWithin hread hspare
  · intro h
    refine ⟨limited h, fun levels lt => ?_⟩
    have le : 257 ≤ levels := lt
    constructor
    · rw [Program.readWithin, Program.readWithin, readProgram_of_lt h (Nat.lt_add_one 256) le]
    · rw [Condition.readWithin, Condition.readWithin, readCondition_of_lt h (Nat.lt_add_one 256) le]

/-! ### A word inside as many forms as may nest -/

/-- A word inside so many sequences. -/
def Source.nestedWord : Nat → List Char
  | 0 => ['x']
  | n + 1 => '(' :: ("seq ".toList ++ nestedWord n ++ [')'])

namespace Source

theorem enclosed_or_word_nestedWord (n : Nat) :
    (Enclosed (nestedWord n) ∨ Word (nestedWord n)) ∧ NestsWithin n (nestedWord n) := by
  induction n with
  | zero => exact ⟨.inr (by decide), by decide⟩
  | succ n ih =>
      obtain ⟨hkind, hnests⟩ := ih
      have hseq : balanced "seq ".toList := rfl
      have hinside : balanced ("seq ".toList ++ nestedWord n) := by
        rw [balanced_append hseq]
        exact balanced_of_enclosed_or_word hkind
      have hdeep : NestsWithin n ("seq ".toList ++ nestedWord n) :=
        .append hseq (.of_not_mem (by decide)) hnests
      exact ⟨.inl ⟨_, hinside, rfl⟩, (NestsWithin.enclosed_iff hinside).mpr ⟨n, rfl, hdeep⟩⟩

theorem openForm_nestedWord (expected : Production) (n : Nat) :
    openForm expected (nestedWord (n + 1)) =
      .ok ⟨trim (nestedWord (n + 1)), "seq", [nestedWord n]⟩ := by
  have hsplits : Splits ([' '] ++ (nestedWord n ++ [])) [nestedWord n] := by
    rcases (enclosed_or_word_nestedWord n).1 with h | h
    · exact .form blanks_space h (.nil Blanks.nil)
    · exact .word blanks_space h (fun c hc => by cases hc) (.nil Blanks.nil)
  have hframed : Framed "seq" ([' '] ++ (nestedWord n ++ [])) (nestedWord (n + 1)) :=
    ⟨[], [], "seq".toList, [], [], by simp [nestedWord, Blanks.nil]⟩
  rw [openForm_of_framed expected hframed (by decide) hsplits.balanced
    (endsTag_blanks_append blanks_space (by decide) _), hsplits.splitArguments_eq]

/-- With as many levels as there are sequences, the word is too deep; with more, it is no program. -/
theorem readProgram_nestedWord (n more : Nat) :
    readProgram n (nestedWord n) = .error (.tooDeep 256) ∧
      readProgram (n + more + 1) (nestedWord n) = .error (.unrecognized .program "x") := by
  induction n with
  | zero => exact ⟨rfl, by rw [readProgram_succ, openForm_of_word (by decide)]; rfl⟩
  | succ n ih =>
      have hopen := openForm_nestedWord .program n
      rw [readProgram_seq hopen, show n + 1 + more + 1 = n + more + 1 + 1 by omega,
        readProgram_seq hopen, List.mapM_cons, List.mapM_cons, ih.1, ih.2]
      exact ⟨rfl, rfl⟩

/-- The same of whole texts. -/
theorem read_nestedWord (n more : Nat) :
    Program.readWithin n (String.ofList (nestedWord n)) = .error (.tooDeep 256) ∧
      Program.readWithin (n + more + 1) (String.ofList (nestedWord n)) =
        .error (.unrecognized .program "x") := by
  have hbalance : checkBalance (nestedWord n) = .ok () :=
    if_pos (balanced_of_enclosed_or_word (enclosed_or_word_nestedWord n).1)
  rw [Program.readWithin, Program.readWithin, String.toList_ofList, hbalance]
  exact readProgram_nestedWord n more

end Source

/-- A word inside 256 sequences is said to be too deep; it nests deeper than 255 levels, and the
answer with 257 levels is of the kind that is allowed for a word. -/
theorem tooDeep_reports_nesting_word :
    (Program.read (String.ofList (nestedWord 256)) = .error (.tooDeep 256) ∧
        ¬ NestsWithin 255 (String.ofList (nestedWord 256)).toList) ∧
      NestsWithin 256 (String.ofList (nestedWord 256)).toList ∧
      Limited (String.ofList (nestedWord 256)).toList
        (Program.read (String.ofList (nestedWord 256)))
        (Program.readWithin 257 (String.ofList (nestedWord 256))) := by
  have hread := (read_nestedWord 256 0).1
  have hnests : NestsWithin 256 (String.ofList (nestedWord 256)).toList := by
    rw [String.toList_ofList]
    exact (enclosed_or_word_nestedWord 256).2
  exact ⟨⟨hread, (tooDeep_reports_nesting _).1.1 256 hread⟩, hnests,
    ((tooDeep_reports_nesting _).2 hnests).1.1⟩

/-- A word inside 256 sequences is said to be too deep, although no form is nested deeper than 256
levels; with any more levels it is said to be no program, which is what is wrong with it. -/
theorem tooDeep_nestedWord :
    NestsWithin 256 (nestedWord 256) ∧
      Program.read (String.ofList (nestedWord 256)) = .error (.tooDeep 256) ∧
      ∀ levels, 256 < levels → Program.readWithin levels (String.ofList (nestedWord 256)) =
        .error (.unrecognized .program "x") := by
  refine ⟨(enclosed_or_word_nestedWord 256).2, (read_nestedWord 256 0).1, ?_⟩
  intro levels lt
  obtain ⟨more, rfl⟩ := Nat.exists_eq_add_of_lt lt
  exact (read_nestedWord 256 more).2

end RobotControl
