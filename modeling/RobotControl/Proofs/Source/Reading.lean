import RobotControl.Proofs.Sequencing
import RobotControl.Proofs.Source.Grammar

/-!
Reading is derivation.

* `openForm_of_framed`: a framed text is opened as what it was framed with.
* `Condition.read_of_derives`, `Program.read_of_derives`: what stands for a tree is read as that
  tree, unless it nests deeper than the levels that are left.
* `Condition.derives_of_read`, `Program.derives_of_read`: what is read stands for its tree.
-/

namespace RobotControl

open Source Text

/-! ### Opening a form -/

namespace Source

theorem openForm_eq_ok_iff {expected : Production} {cs : List Char} {form : Form} :
    openForm expected cs = .ok form ↔ Form.split? cs = some form := by
  unfold openForm
  constructor
  · intro h
    split at h
    · cases h
    · split at h
      · rename_i found hsplit
        rw [hsplit, Except.ok.inj h]
      · cases h
  · intro h
    obtain ⟨before, body, behind, hb, he, hbody, rfl⟩ := Form.exists_of_split? h
    rw [trim_parenthesized hb he, h]
    rfl

/-- **A framed text is opened as what it was framed with.** -/
theorem openForm_of_framed (expected : Production) {word : String} {inside cs : List Char}
    (framed : Framed word inside cs) (hword : Word word.toList) (hinside : balanced inside)
    (hends : EndsTag inside) :
    openForm expected cs = .ok ⟨trim cs, word, splitArguments inside⟩ := by
  rw [openForm_eq_ok_iff, Form.split?_eq_some_iff]
  exact ⟨inside, framed, hword, hinside, hends, rfl, rfl⟩

theorem openForm_of_framed_nil (expected : Production) {word : String} {cs : List Char}
    (framed : Framed word [] cs) (hword : Word word.toList) :
    openForm expected cs = .ok ⟨trim cs, word, []⟩ := by
  rw [openForm_of_framed expected framed hword rfl EndsTag.nil, splitArguments_nil]

theorem openForm_of_framed_word (expected : Production) {tag : String} {gap word cs : List Char}
    (framed : Framed tag (gap ++ word) cs) (htag : Word tag.toList) (blanks : Blanks gap)
    (separated : gap ≠ []) (isWord : Word word) :
    openForm expected cs = .ok ⟨trim cs, tag, [word]⟩ := by
  have hsplits : Splits (gap ++ (word ++ [])) [word] := by
    refine .word blanks isWord ?_ (.nil Blanks.nil)
    intro c hc
    cases hc
  rw [List.append_nil] at hsplits
  have hends := endsTag_blanks_append blanks separated word
  rw [openForm_of_framed expected framed htag hsplits.balanced hends, hsplits.splitArguments_eq]

theorem openForm_of_framed_flatten (expected : Production) {word : String} {cs : List Char}
    {parts : List (List Char)} (framed : Framed word parts.flatten cs) (hword : Word word.toList)
    (hparts : ∀ part ∈ parts, Formed part) :
    openForm expected cs = .ok ⟨trim cs, word, parts.map trim⟩ := by
  rw [openForm_of_framed expected framed hword (balanced_flatten hparts) (endsTag_flatten hparts),
    splitArguments_flatten hparts]

theorem readAmount_eq_ok_iff {cs : List Char} {amount : Float} :
    readAmount cs = .ok amount ↔ Decimal.read? cs = some amount ∧ amount.isFinite := by
  unfold readAmount
  constructor
  · intro h
    split at h
    · rename_i x hread
      split at h
      · rename_i hfinite
        obtain rfl := Except.ok.inj h
        exact ⟨hread, hfinite⟩
      · cases h
    · cases h
  · rintro ⟨hread, hfinite⟩
    rw [hread]
    exact if_pos hfinite

theorem openForm_trim (expected : Production) (cs : List Char) :
    openForm expected (trim cs) = openForm expected cs := by
  rw [openForm, openForm, Form.split?, Form.split?, trim_trim]

theorem tooDeepFor_trim (expected : Production) (cs : List Char) :
    tooDeepFor expected (trim cs) = tooDeepFor expected cs := by
  rw [tooDeepFor, tooDeepFor, trim_trim]

theorem tooDeepFor_of_formed {expected : Production} {cs : List Char} (h : Formed cs) :
    tooDeepFor expected cs = .tooDeep maxDepth := by
  rw [tooDeepFor, if_neg]
  rw [List.isEmpty_iff]
  exact h.trim_ne_nil

theorem readCondition_trim (levels : Nat) (cs : List Char) :
    readCondition levels (trim cs) = readCondition levels cs := by
  cases levels with
  | zero => rw [readCondition, readCondition, tooDeepFor_trim]
  | succ levels => rw [readCondition, readCondition, openForm_trim]

theorem readProgram_trim (levels : Nat) (cs : List Char) :
    readProgram levels (trim cs) = readProgram levels cs := by
  cases levels with
  | zero => rw [readProgram, readProgram, tooDeepFor_trim]
  | succ levels => rw [readProgram, readProgram, openForm_trim]

end Source

/-! ### One production -/

section Productions

variable {levels : Nat} {cs text : List Char} {args : List (List Char)}

theorem readCondition_constant {value : Bool}
    (h : openForm .condition cs = .ok ⟨text, constantKeyword value, []⟩) :
    readCondition (levels + 1) cs = .ok (.constant value) := by
  show (openForm .condition cs >>= _) = _
  rw [h]
  cases value <;> rfl

theorem readCondition_sensor {which : Sensor}
    (h : openForm .condition cs = .ok ⟨text, which.keyword, []⟩) :
    readCondition (levels + 1) cs = .ok (.sensor which) := by
  show (openForm .condition cs >>= _) = _
  rw [h]
  cases which <;> rfl

theorem readCondition_energyAtLeast {word : List Char}
    (h : openForm .condition cs = .ok ⟨text, "energy-at-least", [word]⟩) :
    readCondition (levels + 1) cs = (do return .energyAtLeast (← readAmount word)) := by
  show (openForm .condition cs >>= _) = _
  rw [h]
  rfl

theorem readCondition_and (h : openForm .condition cs = .ok ⟨text, "and", args⟩) :
    readCondition (levels + 1) cs = (do return .and (← args.mapM (readCondition levels))) := by
  show (openForm .condition cs >>= _) = _
  rw [h]
  rfl

theorem readCondition_or (h : openForm .condition cs = .ok ⟨text, "or", args⟩) :
    readCondition (levels + 1) cs = (do return .or (← args.mapM (readCondition levels))) := by
  show (openForm .condition cs >>= _) = _
  rw [h]
  rfl

theorem readCondition_not {operand : List Char}
    (h : openForm .condition cs = .ok ⟨text, "not", [operand]⟩) :
    readCondition (levels + 1) cs = (do return .not (← readCondition levels operand)) := by
  show (openForm .condition cs >>= _) = _
  rw [h]
  rfl

theorem readProgram_act {action : Action}
    (h : openForm .program cs = .ok ⟨text, action.keyword, []⟩) :
    readProgram (levels + 1) cs = .ok (.act action) := by
  show (openForm .program cs >>= _) = _
  rw [h]
  cases action <;> rfl

theorem readProgram_seq (h : openForm .program cs = .ok ⟨text, "seq", args⟩) :
    readProgram (levels + 1) cs = (do return .seq (← args.mapM (readProgram levels))) := by
  show (openForm .program cs >>= _) = _
  rw [h]
  rfl

theorem readProgram_if {test thenPart elsePart : List Char}
    (h : openForm .program cs = .ok ⟨text, "if", [test, thenPart, elsePart]⟩) :
    readProgram (levels + 1) cs =
      (do return .branch (← readCondition levels test) (← readProgram levels thenPart)
            (← readProgram levels elsePart)) := by
  show (openForm .program cs >>= _) = _
  rw [h]
  rfl

theorem readProgram_while {test body : List Char}
    (h : openForm .program cs = .ok ⟨text, "while", [test, body]⟩) :
    readProgram (levels + 1) cs =
      (do return .loop (← readCondition levels test) (← readProgram levels body)) := by
  show (openForm .program cs >>= _) = _
  rw [h]
  rfl

end Productions

/-! ### What stands for a tree is read -/

/-- The answer for a value whose forms nest in `depth` levels, with `levels` levels left. -/
def Source.within {α : Type} (levels depth : Nat) (value : α) : Except SyntaxError α :=
  if depth ≤ levels then .ok value else .error (.tooDeep maxDepth)

theorem Source.within_bind {α β : Type} (levels d e : Nat) (a : α) (f : α → β) :
    (within levels d a >>= fun x => within levels e (f x)) = within levels (max d e) (f a) := by
  unfold within
  by_cases hd : d ≤ levels
  · rw [if_pos hd]
    by_cases he : e ≤ levels
    · rw [if_pos (Nat.max_le.mpr ⟨hd, he⟩)]
      exact if_pos he
    · rw [if_neg fun h => he (Nat.max_le.mp h).2]
      exact if_neg he
  · rw [if_neg hd, if_neg fun h => hd (Nat.max_le.mp h).1]
    rfl

theorem Source.within_map {α β : Type} (levels d : Nat) (a : α) (f : α → β) :
    (within levels d a >>= fun x => pure (f x)) = within levels d (f a) := by
  unfold within
  by_cases hd : d ≤ levels
  · rw [if_pos hd, if_pos hd]
    rfl
  · rw [if_neg hd, if_neg hd]
    rfl

theorem Source.within_succ {α : Type} (levels d : Nat) (a : α) :
    within (levels + 1) (d + 1) a = within levels d a := by
  unfold within
  by_cases hd : d ≤ levels
  · rw [if_pos hd, if_pos (Nat.succ_le_succ hd)]
  · rw [if_neg hd, if_neg fun h => hd (Nat.le_of_succ_le_succ h)]

mutual

/-- **What stands for a condition is read as that condition**, unless too few levels are left. -/
theorem Condition.read_of_derives :
    ∀ {c : Condition} {cs : List Char} (levels : Nat), Condition.Derives cs c →
      readCondition levels cs = within levels c.depth c
  | c, cs, 0, h => by
      rw [readCondition, tooDeepFor_of_formed h.formed, within,
        if_neg (Nat.not_le.mpr c.depth_pos)]
  | .constant v, cs, levels + 1, .constant framed => by
      have hopen := openForm_of_framed_nil .condition framed (word_constantKeyword v)
      rw [readCondition_constant hopen]
      exact (if_pos (Nat.le_add_left 1 levels)).symm
  | .sensor s, cs, levels + 1, .sensor framed => by
      rw [readCondition_sensor (openForm_of_framed_nil .condition framed s.word_keyword)]
      exact (if_pos (Nat.le_add_left 1 levels)).symm
  | .energyAtLeast amount, cs, levels + 1,
      .energyAtLeast blanks separated isWord read finite framed => by
      have hopen := openForm_of_framed_word .condition framed (by decide) blanks
        separated isWord
      rw [readCondition_energyAtLeast hopen, readAmount_eq_ok_iff.mpr ⟨read, finite⟩]
      exact (if_pos (Nat.le_add_left 1 levels)).symm
  | .and operands, cs, levels + 1, .and each framed => by
      have hparts := Condition.formed_of_derivesAll each
      have hopen := openForm_of_framed_flatten .condition framed (by decide) hparts
      rw [readCondition_and hopen, Condition.readAll_of_derives levels each, within_map,
        Condition.depth, within_succ]
  | .or operands, cs, levels + 1, .or each framed => by
      have hparts := Condition.formed_of_derivesAll each
      have hopen := openForm_of_framed_flatten .condition framed (by decide) hparts
      rw [readCondition_or hopen, Condition.readAll_of_derives levels each, within_map,
        Condition.depth, within_succ]
  | .not operand, cs, levels + 1, @Condition.Derives.not _ part _ only framed => by
      have hparts : ∀ xs ∈ [part], Formed xs := List.forall_mem_singleton.mpr only.formed
      rw [← List.flatten_singleton (l := part)] at framed
      have hopen := openForm_of_framed_flatten .condition framed (by decide) hparts
      rw [readCondition_not hopen, readCondition_trim, Condition.read_of_derives levels only,
        within_map, Condition.depth, within_succ]

theorem Condition.readAll_of_derives :
    ∀ {operands : List Condition} {parts : List (List Char)} (levels : Nat),
      List.Forall₂ Condition.Derives parts operands →
        (parts.map trim).mapM (readCondition levels) =
          within levels (Condition.depthOf operands) operands
  | [], _, levels, .nil => (if_pos (Nat.zero_le levels)).symm
  | c :: cs, _, levels, .cons head tail => by
      rw [List.map_cons, List.mapM_cons, readCondition_trim, Condition.read_of_derives levels head,
        Condition.readAll_of_derives levels tail]
      simp only [within_map, within_bind, Condition.depthOf]

end

mutual

/-- **What stands for a program is read as that program**, unless too few levels are left. -/
theorem Program.read_of_derives :
    ∀ {p : Program} {cs : List Char} (levels : Nat), Program.Derives cs p →
      readProgram levels cs = within levels p.depth p
  | p, cs, 0, h => by
      rw [readProgram, tooDeepFor_of_formed h.formed, within,
        if_neg (Nat.not_le.mpr p.depth_pos)]
  | .act a, cs, levels + 1, .act framed => by
      rw [readProgram_act (openForm_of_framed_nil .program framed a.word_keyword)]
      exact (if_pos (Nat.le_add_left 1 levels)).symm
  | .seq body, cs, levels + 1, .seq each framed => by
      have hparts := Program.formed_of_derivesAll each
      have hopen := openForm_of_framed_flatten .program framed (by decide) hparts
      rw [readProgram_seq hopen, Program.readAll_of_derives levels each, within_map, Program.depth,
        within_succ]
  | .branch test thenPart elsePart, cs, levels + 1,
      @Program.Derives.branch _ xs ys zs _ _ _ first second third framed => by
      have hparts : ∀ part ∈ [xs, ys, zs], Formed part := by
        simp [first.formed, second.formed, third.formed]
      have hflatten : xs ++ (ys ++ zs) = [xs, ys, zs].flatten := by simp
      rw [hflatten] at framed
      have hopen := openForm_of_framed_flatten .program framed (by decide) hparts
      rw [readProgram_if hopen, readCondition_trim, readProgram_trim, readProgram_trim,
        Condition.read_of_derives levels first, Program.read_of_derives levels second,
        Program.read_of_derives levels third]
      simp only [within_map, within_bind, Program.depth, within_succ]
  | .loop test body, cs, levels + 1, @Program.Derives.loop _ xs ys _ _ first second framed => by
      have hparts : ∀ part ∈ [xs, ys], Formed part := by simp [first.formed, second.formed]
      have hflatten : xs ++ ys = [xs, ys].flatten := by simp
      rw [hflatten] at framed
      have hopen := openForm_of_framed_flatten .program framed (by decide) hparts
      rw [readProgram_while hopen, readCondition_trim, readProgram_trim,
        Condition.read_of_derives levels first, Program.read_of_derives levels second]
      simp only [within_map, within_bind, Program.depth, within_succ]

theorem Program.readAll_of_derives :
    ∀ {body : List Program} {parts : List (List Char)} (levels : Nat),
      List.Forall₂ Program.Derives parts body →
        (parts.map trim).mapM (readProgram levels) =
          within levels (Program.depthOf body) body
  | [], _, levels, .nil => (if_pos (Nat.zero_le levels)).symm
  | p :: ps, _, levels, .cons head tail => by
      rw [List.map_cons, List.mapM_cons, readProgram_trim, Program.read_of_derives levels head,
        Program.readAll_of_derives levels tail]
      simp only [within_map, within_bind, Program.depthOf]

end

/-! ### What is read stands for its tree -/

namespace Source

/-- What is opened was framed with the parts that its arguments take up. -/
theorem exists_parts_of_openForm {expected : Production} {cs : List Char} {form : Form}
    (h : openForm expected cs = .ok form) :
    ∃ parts, Framed form.tag parts.flatten cs ∧ EndsTag parts.flatten ∧
      List.Forall₂ Argument parts form.arguments := by
  obtain ⟨inside, framed, hword, hinside, hends, htext, hargs⟩ :=
    Form.split?_eq_some_iff.mp (openForm_eq_ok_iff.mp h)
  obtain ⟨parts, behind, hb, rfl, hparts⟩ := (splits_splitArguments inside hinside).exists_parts
  rw [← hargs] at hparts
  exact ⟨parts, framed.of_append_blanks hb, hends.of_append, hparts⟩

theorem Form.alone_eq_ok_iff {α : Type} {form : Form} {value result : α} :
    form.alone value = .ok result ↔ form.arguments = [] ∧ value = result := by
  unfold Form.alone
  split
  · rename_i h
    rw [List.isEmpty_iff] at h
    constructor
    · intro heq
      exact ⟨h, Except.ok.inj heq⟩
    · rintro ⟨_, rfl⟩
      rfl
  · rename_i h
    constructor
    · intro heq
      cases heq
    · rintro ⟨hnil, _⟩
      exact absurd (List.isEmpty_iff.mpr hnil) h

/-- A form that stands alone was framed with nothing. -/
theorem framed_of_alone {α : Type} {form : Form} {value result : α} {parts : List (List Char)}
    {cs : List Char} (framed : Framed form.tag parts.flatten cs)
    (hargs : List.Forall₂ Argument parts form.arguments) (h : form.alone value = .ok result) :
    Framed form.tag [] cs ∧ value = result := by
  obtain ⟨hnil, heq⟩ := Form.alone_eq_ok_iff.mp h
  rw [hnil] at hargs
  cases hargs
  exact ⟨framed, heq⟩

/-- Reading arguments one by one derives the parts that they take up. -/
theorem forall₂_of_mapM {α : Type} {Derives : List Char → α → Prop}
    {read : List Char → Except SyntaxError α} {parts args : List (List Char)} {trees : List α}
    (sound : ∀ {cs tree}, read cs = .ok tree → Derives cs tree)
    (pad : ∀ {gap cs tree}, Blanks gap → Derives cs tree → Derives (gap ++ cs) tree)
    (hargs : List.Forall₂ Argument parts args) (h : args.mapM read = .ok trees) :
    List.Forall₂ Derives parts trees := by
  rw [mapM_eq_ok_iff] at h
  induction hargs generalizing trees with
  | nil =>
      cases h
      exact .nil
  | cons hpart _ ih =>
      cases h with
      | cons head tail =>
          obtain ⟨_, gap, hgap, rfl⟩ := hpart
          exact .cons (pad hgap (sound head)) (ih tail)

end Source

/-- No number begins with a parenthesis. -/
theorem Decimal.read?_openParen (cs : List Char) : Decimal.read? ('(' :: cs) = none := by
  simp [Decimal.read?, Decimal.splitSign, Decimal.Literal.read?]

/-- The one argument of an energy condition is a word apart from the tag. -/
theorem Source.exists_gap_of_readAmount {parts : List (List Char)} {arg : List Char}
    {amount : Float} (hends : EndsTag parts.flatten) (hargs : List.Forall₂ Argument parts [arg])
    (h : readAmount arg = .ok amount) :
    ∃ gap, Blanks gap ∧ gap ≠ [] ∧ Word arg ∧ parts.flatten = gap ++ arg := by
  cases hargs with
  | cons hpart hnil =>
      cases hnil
      obtain ⟨hshape, gap, hgap, rfl⟩ := hpart
      rw [List.flatten_singleton] at hends ⊢
      have hword : Word arg := by
        rcases hshape with ⟨inside, hinside, rfl⟩ | hword
        · rw [readAmount, Decimal.read?_openParen] at h
          cases h
        · exact hword
      refine ⟨gap, hgap, ?_, hword, rfl⟩
      rintro rfl
      obtain ⟨hne, htag⟩ := hword
      cases arg with
      | nil => contradiction
      | cons c arg =>
          have hends' : inTag c = false := hends c rfl
          rw [htag c List.mem_cons_self] at hends'
          cases hends'

/-- **What is read as a condition stands for it.** -/
theorem Condition.derives_of_read :
    ∀ {levels : Nat} {cs : List Char} {c : Condition}, readCondition levels cs = .ok c →
      Condition.Derives cs c
  | 0, cs, c, h => by cases h
  | levels + 1, cs, c, h => by
      rw [readCondition] at h
      obtain ⟨form, hopen, h⟩ := bind_eq_ok_iff.mp h
      obtain ⟨parts, framed, hends, hargs⟩ := exists_parts_of_openForm hopen
      split at h
      · rename_i htag
        obtain ⟨framed, rfl⟩ := framed_of_alone framed hargs h
        rw [htag] at framed
        exact .constant framed
      · rename_i htag
        obtain ⟨framed, rfl⟩ := framed_of_alone framed hargs h
        rw [htag] at framed
        exact .constant framed
      · rename_i htag
        obtain ⟨operands, hoperands, h⟩ := bind_eq_ok_iff.mp h
        obtain rfl := Except.ok.inj h
        rw [htag] at framed
        exact .and (forall₂_of_mapM Condition.derives_of_read .blanks_append hargs hoperands) framed
      · rename_i htag
        obtain ⟨operands, hoperands, h⟩ := bind_eq_ok_iff.mp h
        obtain rfl := Except.ok.inj h
        rw [htag] at framed
        exact .or (forall₂_of_mapM Condition.derives_of_read .blanks_append hargs hoperands) framed
      · rename_i htag
        split at h
        · rename_i operand hone
          obtain ⟨tree, htree, h⟩ := bind_eq_ok_iff.mp h
          obtain rfl := Except.ok.inj h
          rw [hone] at hargs
          obtain _ | ⟨⟨_, gap, hgap, rfl⟩, _ | _⟩ := hargs
          rw [htag, List.flatten_singleton] at framed
          exact .not ((Condition.derives_of_read htree).blanks_append hgap) framed
        · cases h
      · rename_i htag
        split at h
        · rename_i arg hone
          obtain ⟨amount, hamount, h⟩ := bind_eq_ok_iff.mp h
          obtain rfl := Except.ok.inj h
          rw [hone] at hargs
          obtain ⟨gap, hgap, hne, hword, hflatten⟩ := exists_gap_of_readAmount hends hargs hamount
          obtain ⟨hread, hfinite⟩ := readAmount_eq_ok_iff.mp hamount
          rw [htag, hflatten] at framed
          exact .energyAtLeast hgap hne hword hread hfinite framed
        · cases h
      · split at h
        · rename_i sensor hsensor
          obtain ⟨framed, rfl⟩ := framed_of_alone framed hargs h
          rw [← Sensor.keyword_of_ofKeyword? hsensor] at framed
          exact .sensor framed
        · cases h

/-- **What is read as a program stands for it.** -/
theorem Program.derives_of_read :
    ∀ {levels : Nat} {cs : List Char} {p : Program}, readProgram levels cs = .ok p →
      Program.Derives cs p
  | 0, cs, p, h => by cases h
  | levels + 1, cs, p, h => by
      rw [readProgram] at h
      obtain ⟨form, hopen, h⟩ := bind_eq_ok_iff.mp h
      obtain ⟨parts, framed, hends, hargs⟩ := exists_parts_of_openForm hopen
      split at h
      · rename_i htag
        obtain ⟨body, hbody, h⟩ := bind_eq_ok_iff.mp h
        obtain rfl := Except.ok.inj h
        rw [htag] at framed
        exact .seq (forall₂_of_mapM Program.derives_of_read .blanks_append hargs hbody) framed
      · rename_i htag
        split at h
        · rename_i xs ys zs hthree
          obtain ⟨test, htest, h⟩ := bind_eq_ok_iff.mp h
          obtain ⟨thenPart, hthen, h⟩ := bind_eq_ok_iff.mp h
          obtain ⟨elsePart, helse, h⟩ := bind_eq_ok_iff.mp h
          obtain rfl := Except.ok.inj h
          rw [hthree] at hargs
          obtain _ | ⟨⟨_, gap₁, hgap₁, rfl⟩, _ | ⟨⟨_, gap₂, hgap₂, rfl⟩,
            _ | ⟨⟨_, gap₃, hgap₃, rfl⟩, _ | _⟩⟩⟩ := hargs
          rw [htag, List.flatten_cons, List.flatten_cons, List.flatten_singleton] at framed
          exact .branch ((Condition.derives_of_read htest).blanks_append hgap₁)
            ((Program.derives_of_read hthen).blanks_append hgap₂)
            ((Program.derives_of_read helse).blanks_append hgap₃) framed
        · cases h
      · rename_i htag
        split at h
        · rename_i xs ys htwo
          obtain ⟨test, htest, h⟩ := bind_eq_ok_iff.mp h
          obtain ⟨body, hbody, h⟩ := bind_eq_ok_iff.mp h
          obtain rfl := Except.ok.inj h
          rw [htwo] at hargs
          obtain _ | ⟨⟨_, gap₁, hgap₁, rfl⟩, _ | ⟨⟨_, gap₂, hgap₂, rfl⟩, _ | _⟩⟩ := hargs
          rw [htag, List.flatten_cons, List.flatten_singleton] at framed
          exact .loop ((Condition.derives_of_read htest).blanks_append hgap₁)
            ((Program.derives_of_read hbody).blanks_append hgap₂) framed
        · cases h
      · split at h
        · rename_i action haction
          obtain ⟨framed, rfl⟩ := framed_of_alone framed hargs h
          rw [← Action.keyword_of_ofKeyword? haction] at framed
          exact .act framed
        · cases h

/-! ### Whole texts -/

theorem Source.checkBalance_of_formed {cs : List Char} (h : Formed cs) :
    checkBalance cs = .ok () :=
  if_pos h.balanced

/-- A text stands for one condition at most: with enough levels it would be read as either. -/
theorem Condition.Derives.unique {c d : Condition} {cs : List Char} (hc : Condition.Derives cs c)
    (hd : Condition.Derives cs d) : c = d := by
  have hreadc := Condition.read_of_derives (max c.depth d.depth) hc
  have hreadd := Condition.read_of_derives (max c.depth d.depth) hd
  rw [within, if_pos (Nat.le_max_left _ _)] at hreadc
  rw [within, if_pos (Nat.le_max_right _ _), hreadc] at hreadd
  exact Except.ok.inj hreadd

theorem Program.Derives.unique {p q : Program} {cs : List Char} (hp : Program.Derives cs p)
    (hq : Program.Derives cs q) : p = q := by
  have hreadp := Program.read_of_derives (max p.depth q.depth) hp
  have hreadq := Program.read_of_derives (max p.depth q.depth) hq
  rw [within, if_pos (Nat.le_max_left _ _)] at hreadp
  rw [within, if_pos (Nat.le_max_right _ _), hreadp] at hreadq
  exact Except.ok.inj hreadq

theorem Condition.read_text_of_derives {c : Condition} {text : String}
    (h : Condition.Derives text.toList c) : Condition.read text = within maxDepth c.depth c := by
  rw [Condition.read, checkBalance_of_formed h.formed]
  exact Condition.read_of_derives maxDepth h

theorem Program.read_text_of_derives {p : Program} {text : String}
    (h : Program.Derives text.toList p) : Program.read text = within maxDepth p.depth p := by
  rw [Program.read, checkBalance_of_formed h.formed]
  exact Program.read_of_derives maxDepth h

theorem Condition.derives_of_read_text {c : Condition} {text : String}
    (h : Condition.read text = .ok c) : Condition.Derives text.toList c := by
  obtain ⟨_, _, h⟩ := bind_eq_ok_iff.mp h
  exact Condition.derives_of_read h

theorem Program.derives_of_read_text {p : Program} {text : String}
    (h : Program.read text = .ok p) : Program.Derives text.toList p := by
  obtain ⟨_, _, h⟩ := bind_eq_ok_iff.mp h
  exact Program.derives_of_read h

/-- **Reading accepts exactly the grammar.** A text that stands for a tree is read as that tree if
its forms nest in at most 256 levels, and is too deep otherwise; a text that stands for no tree is
refused; and no text stands for two trees. -/
theorem read_accepts_exactly_grammar (text : String) :
    ((∀ p, Program.Derives text.toList p →
          Program.read text = if p.depth ≤ 256 then .ok p else .error (.tooDeep 256)) ∧
        ((∀ p, ¬ Program.Derives text.toList p) → ∃ e, Program.read text = .error e) ∧
        ∀ p q, Program.Derives text.toList p → Program.Derives text.toList q → p = q) ∧
      (∀ c, Condition.Derives text.toList c →
          Condition.read text = if c.depth ≤ 256 then .ok c else .error (.tooDeep 256)) ∧
        ((∀ c, ¬ Condition.Derives text.toList c) → ∃ e, Condition.read text = .error e) ∧
        ∀ c d, Condition.Derives text.toList c → Condition.Derives text.toList d → c = d := by
  refine ⟨⟨fun p h => Program.read_text_of_derives h, ?_, fun p q hp hq => hp.unique hq⟩,
    fun c h => Condition.read_text_of_derives h, ?_, fun c d hc hd => hc.unique hd⟩
  · intro hnone
    cases hread : Program.read text with
    | error e => exact ⟨e, rfl⟩
    | ok p => exact absurd (Program.derives_of_read_text hread) (hnone p)
  · intro hnone
    cases hread : Condition.read text with
    | error e => exact ⟨e, rfl⟩
    | ok c => exact absurd (Condition.derives_of_read_text hread) (hnone c)

/-- A loop written without white space between its arguments, with capitals and with blanks inside
the parentheses, is read; a text with a parenthesis too few is not. -/
theorem read_accepts_exactly_grammar_loop :
    Condition.Derives "(NOT(wall))".toList (.not (.sensor .wall)) ∧
      Program.Derives "(WHILE(NOT(wall))( seq (Move) ))".toList
        (.loop (.not (.sensor .wall)) (.seq [.act .move])) ∧
      (∀ p, ¬ Program.Derives "(move".toList p) ∧
      Condition.read "(NOT(wall))" = .ok (.not (.sensor .wall)) ∧
      Program.read "(WHILE(NOT(wall))( seq (Move) ))" =
        .ok (.loop (.not (.sensor .wall)) (.seq [.act .move])) ∧
      ∃ e, Program.read "(move" = .error e := by
  have hwall : Condition.Derives "(wall)".toList (.sensor .wall) :=
    .sensor ⟨[], [], "wall".toList, [], [], by decide⟩
  have hnot : Condition.Derives "(NOT(wall))".toList (.not (.sensor .wall)) :=
    .not hwall ⟨[], [], "NOT".toList, [], [], by decide⟩
  have hmove : Program.Derives " (Move)".toList (.act .move) :=
    .act ⟨" ".toList, [], "Move".toList, [], [], by decide⟩
  have hseq : Program.Derives "( seq (Move) )".toList (.seq [.act .move]) :=
    .seq (.cons hmove .nil) ⟨[], " ".toList, "seq".toList, " ".toList, [], by decide⟩
  have hloop : Program.Derives "(WHILE(NOT(wall))( seq (Move) ))".toList
      (.loop (.not (.sensor .wall)) (.seq [.act .move])) :=
    .loop hnot hseq ⟨[], [], "WHILE".toList, [], [], by decide⟩
  have hnone : ∀ p, ¬ Program.Derives "(move".toList p := by
    intro p h
    exact absurd h.formed.balanced (by decide)
  refine ⟨hnot, hloop, hnone, ?_, ?_, ?_⟩
  · exact (read_accepts_exactly_grammar "(NOT(wall))").2.1 _ hnot
  · exact (read_accepts_exactly_grammar "(WHILE(NOT(wall))( seq (Move) ))").1.1 _ hloop
  · exact (read_accepts_exactly_grammar "(move").1.2.1 hnone

end RobotControl
