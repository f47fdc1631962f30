import RobotControl.Proofs.Source.Splitting
import RobotControl.Source.Reader

/-!
The grammar of programs.

Which texts stand for which trees is said by derivations, one constructor for each kind of node. A
derivation knows nothing of how deep forms may nest.

* `Condition.Derives`, `Program.Derives`: the text stands for the tree.
* `Condition.depth`, `Program.depth`: in how many levels the forms of a tree nest.
* `Formed.splitArguments_append`: a form written next to other arguments is the first of them.
* `Condition.Derives.formed`, `Program.Derives.formed`: what stands for a tree is one form.
-/

namespace RobotControl

open Source Text

/-! ### Depth -/

mutual

/-- The levels in which the forms of a condition nest. -/
def Condition.depth : Condition → Nat
  | .constant _ => 1
  | .sensor _ => 1
  | .energyAtLeast _ => 1
  | .and operands => Condition.depthOf operands + 1
  | .or operands => Condition.depthOf operands + 1
  | .not operand => operand.depth + 1

/-- The depth of the deepest condition. -/
def Condition.depthOf : List Condition → Nat
  | [] => 0
  | c :: cs => max c.depth (Condition.depthOf cs)

end

mutual

/-- The levels in which the forms of a program nest, those of its conditions among them. -/
def Program.depth : Program → Nat
  | .act _ => 1
  | .seq body => Program.depthOf body + 1
  | .branch test thenPart elsePart => max test.depth (max thenPart.depth elsePart.depth) + 1
  | .loop test body => max test.depth body.depth + 1

/-- The depth of the deepest program. -/
def Program.depthOf : List Program → Nat
  | [] => 0
  | p :: ps => max p.depth (Program.depthOf ps)

end

theorem Condition.depth_pos (c : Condition) : 0 < c.depth := by
  cases c <;> exact Nat.succ_pos _

theorem Program.depth_pos (p : Program) : 0 < p.depth := by
  cases p <;> exact Nat.succ_pos _

/-! ### Derivations -/

/-- The word for a truth value in programs. -/
def Source.constantKeyword (value : Bool) : String :=
  if value then "true" else "false"

/-- The text stands for the condition. The arguments of a form follow the tag and each other with or
without white space; the amount of energy is one word with white space in front of it. -/
inductive Condition.Derives : List Char → Condition → Prop
  | constant {cs : List Char} {value : Bool} (framed : Framed (constantKeyword value) [] cs) :
      Condition.Derives cs (.constant value)
  | sensor {cs : List Char} {which : Sensor} (framed : Framed which.keyword [] cs) :
      Condition.Derives cs (.sensor which)
  | energyAtLeast {cs gap word : List Char} {amount : Float} (blanks : Blanks gap)
      (separated : gap ≠ []) (isWord : Word word) (read : Decimal.read? word = some amount)
      (finite : amount.isFinite) (framed : Framed "energy-at-least" (gap ++ word) cs) :
      Condition.Derives cs (.energyAtLeast amount)
  | and {cs : List Char} {parts : List (List Char)} {operands : List Condition}
      (each : List.Forall₂ Condition.Derives parts operands)
      (framed : Framed "and" parts.flatten cs) : Condition.Derives cs (.and operands)
  | or {cs : List Char} {parts : List (List Char)} {operands : List Condition}
      (each : List.Forall₂ Condition.Derives parts operands)
      (framed : Framed "or" parts.flatten cs) : Condition.Derives cs (.or operands)
  | not {cs part : List Char} {operand : Condition} (only : Condition.Derives part operand)
      (framed : Framed "not" part cs) : Condition.Derives cs (.not operand)

/-- The text stands for the program. -/
inductive Program.Derives : List Char → Program → Prop
  | act {cs : List Char} {action : Action} (framed : Framed action.keyword [] cs) :
      Program.Derives cs (.act action)
  | seq {cs : List Char} {parts : List (List Char)} {body : List Program}
      (each : List.Forall₂ Program.Derives parts body) (framed : Framed "seq" parts.flatten cs) :
      Program.Derives cs (.seq body)
  | branch {cs xs ys zs : List Char} {test : Condition} {thenPart elsePart : Program}
      (first : test.Derives xs) (second : Program.Derives ys thenPart)
      (third : Program.Derives zs elsePart) (framed : Framed "if" (xs ++ (ys ++ zs)) cs) :
      Program.Derives cs (.branch test thenPart elsePart)
  | loop {cs xs ys : List Char} {test : Condition} {body : Program}
      (first : Condition.Derives xs test) (second : Program.Derives ys body)
      (framed : Framed "while" (xs ++ ys) cs) : Program.Derives cs (.loop test body)

/-! ### Texts of one form -/

namespace Source

/-- One form with white space around it. -/
def Formed (cs : List Char) : Prop :=
  ∃ before form behind, Blanks before ∧ Enclosed form ∧ Blanks behind ∧
    cs = before ++ (form ++ behind)

theorem Enclosed.trim_surrounded {before form behind : List Char} (h : Enclosed form)
    (hb : Blanks before) (he : Blanks behind) : trim (before ++ (form ++ behind)) = form := by
  obtain ⟨body, hbody, rfl⟩ := h
  exact trim_parenthesized hb he

theorem Enclosed.endsTag {form : List Char} (h : Enclosed form) (cs : List Char) :
    EndsTag (form ++ cs) := by
  obtain ⟨body, hbody, rfl⟩ := h
  intro c hc
  obtain rfl : '(' = c := Option.some.inj hc
  rfl

namespace Formed

variable {cs : List Char}

theorem balanced_append (h : Formed cs) (ys : List Char) : balanced (cs ++ ys) = balanced ys := by
  obtain ⟨before, form, behind, hb, hform, he, rfl⟩ := h
  rw [List.append_assoc, List.append_assoc, balanced_blanks_append hb, hform.balanced_append,
    balanced_blanks_append he]

theorem balanced (h : Formed cs) : balanced cs := by
  rw [← List.append_nil cs, h.balanced_append]
  rfl

theorem trim_ne_nil (h : Formed cs) : trim cs ≠ [] := by
  obtain ⟨before, form, behind, hb, hform, he, rfl⟩ := h
  rw [hform.trim_surrounded hb he]
  obtain ⟨body, hbody, rfl⟩ := hform
  exact List.cons_ne_nil _ _

theorem endsTag_append (h : Formed cs) (ys : List Char) : EndsTag (cs ++ ys) := by
  obtain ⟨before, form, behind, hb, hform, he, rfl⟩ := h
  cases before with
  | nil =>
      rw [List.nil_append, List.append_assoc]
      exact hform.endsTag (behind ++ ys)
  | cons c before =>
      rw [List.append_assoc]
      exact endsTag_blanks_append hb (List.cons_ne_nil c before) _

/-- **A form written next to other arguments is the first of them**, with or without white space
between. -/
theorem splitArguments_append (h : Formed cs) (ys : List Char) :
    splitArguments (cs ++ ys) = trim cs :: splitArguments ys := by
  obtain ⟨before, form, behind, hb, hform, he, rfl⟩ := h
  rw [hform.trim_surrounded hb he, List.append_assoc, List.append_assoc,
    splitArguments_blanks_append hb, hform.splitArguments_append, splitArguments_blanks_append he]

end Formed

theorem balanced_flatten {parts : List (List Char)} (h : ∀ part ∈ parts, Formed part) :
    balanced parts.flatten := by
  induction parts with
  | nil => rfl
  | cons part parts ih =>
      rw [List.flatten_cons, (h part List.mem_cons_self).balanced_append]
      exact ih fun other hother => h other (List.mem_cons_of_mem part hother)

theorem endsTag_flatten {parts : List (List Char)} (h : ∀ part ∈ parts, Formed part) :
    EndsTag parts.flatten := by
  cases parts with
  | nil => exact EndsTag.nil
  | cons part parts => exact (h part List.mem_cons_self).endsTag_append parts.flatten

theorem splitArguments_flatten {parts : List (List Char)} (h : ∀ part ∈ parts, Formed part) :
    splitArguments parts.flatten = parts.map trim := by
  induction parts with
  | nil => exact splitArguments_nil
  | cons part parts ih =>
      rw [List.flatten_cons, (h part List.mem_cons_self).splitArguments_append, List.map_cons,
        ih fun other hother => h other (List.mem_cons_of_mem part hother)]

/-! ### Framed texts -/

namespace Framed

variable {word : String} {inside cs : List Char}

theorem formed (h : Framed word inside cs) (hword : Word word.toList) (hb : balanced inside) :
    Formed cs := by
  obtain ⟨before, gap, tag, after, behind, hbefore, hgap, hafter, hbehind, htag, rfl⟩ := h
  refine ⟨before, _, behind, hbefore, ⟨_, ?_, rfl⟩, hbehind, rfl⟩
  rw [balanced_blanks_append hgap, (hword.of_map_toLower htag).balanced_append,
    Source.balanced_append hb]
  exact balanced_plain (plain_of_blanks hafter)

theorem blanks_append {gap : List Char} (hg : Blanks gap) (h : Framed word inside cs) :
    Framed word inside (gap ++ cs) := by
  obtain ⟨before, gap', tag, after, behind, hbefore, hgap, hafter, hbehind, htag, rfl⟩ := h
  exact ⟨gap ++ before, gap', tag, after, behind, hg.append hbefore, hgap, hafter, hbehind, htag,
    by simp only [List.append_assoc]⟩

theorem append_blanks {gap : List Char} (hg : Blanks gap) (h : Framed word inside cs) :
    Framed word inside (cs ++ gap) := by
  obtain ⟨before, gap', tag, after, behind, hbefore, hgap, hafter, hbehind, htag, rfl⟩ := h
  exact ⟨before, gap', tag, after, behind ++ gap, hbefore, hgap, hafter, hbehind.append hg, htag,
    by simp only [List.append_assoc]⟩

/-- White space behind the arguments is white space before the closing parenthesis. -/
theorem of_append_blanks {after : List Char} (h : Framed word (inside ++ after) cs)
    (ha : Blanks after) : Framed word inside cs := by
  obtain ⟨before, gap, tag, after', behind, hbefore, hgap, hafter, hbehind, htag, rfl⟩ := h
  exact ⟨before, gap, tag, after ++ after', behind, hbefore, hgap, ha.append hafter, hbehind, htag,
    by rw [List.append_assoc inside]⟩

end Framed

end Source

/-! ### What stands for a tree is one form -/

section Keywords

theorem Action.word_keyword (a : Action) : Word a.keyword.toList := by
  cases a <;> decide

theorem Sensor.word_keyword (s : Sensor) : Word s.keyword.toList := by
  cases s <;> decide

theorem Action.keyword_of_ofKeyword? {word : String} {a : Action}
    (h : Action.ofKeyword? word = some a) : a.keyword = word := by
  have hfound := List.find?_some h
  exact eq_of_beq hfound

theorem Sensor.keyword_of_ofKeyword? {word : String} {s : Sensor}
    (h : Sensor.ofKeyword? word = some s) : s.keyword = word := by
  have hfound := List.find?_some h
  exact eq_of_beq hfound

theorem Source.word_constantKeyword (v : Bool) : Word (constantKeyword v).toList := by
  cases v <;> decide

end Keywords

mutual

theorem Condition.Derives.formed :
    ∀ {c : Condition} {cs : List Char}, Condition.Derives cs c → Formed cs
  | .constant v, _, .constant framed => framed.formed (word_constantKeyword v) rfl
  | .sensor s, _, .sensor framed => framed.formed s.word_keyword rfl
  | .energyAtLeast _, _, .energyAtLeast blanks _ isWord _ _ framed => by
      refine framed.formed (by decide) ?_
      rw [balanced_blanks_append blanks]
      exact balanced_plain (plain_of_inTag isWord.2)
  | .and operands, _, .and each framed => by
      have hparts := Condition.formed_of_derivesAll each
      exact framed.formed (by decide) (balanced_flatten hparts)
  | .or operands, _, .or each framed => by
      have hparts := Condition.formed_of_derivesAll each
      exact framed.formed (by decide) (balanced_flatten hparts)
  | .not operand, _, .not only framed =>
      framed.formed (by decide) only.formed.balanced

theorem Condition.formed_of_derivesAll :
    ∀ {operands : List Condition} {parts : List (List Char)},
      List.Forall₂ Condition.Derives parts operands → ∀ part ∈ parts, Formed part
  | [], _, .nil => fun part hpart => absurd hpart List.not_mem_nil
  | c :: cs, _, .cons head tail => by
      intro part hpart
      rcases List.mem_cons.mp hpart with rfl | hmem
      · exact head.formed
      · exact Condition.formed_of_derivesAll tail part hmem

end

mutual

theorem Program.Derives.formed :
    ∀ {p : Program} {cs : List Char}, Program.Derives cs p → Formed cs
  | .act a, _, .act framed => framed.formed a.word_keyword rfl
  | .seq body, _, .seq each framed => by
      have hparts := Program.formed_of_derivesAll each
      exact framed.formed (by decide) (balanced_flatten hparts)
  | .branch test thenPart elsePart, _, .branch first second third framed => by
      refine framed.formed (by decide) ?_
      rw [first.formed.balanced_append, second.formed.balanced_append]
      exact third.formed.balanced
  | .loop test body, _, .loop first second framed => by
      refine framed.formed (by decide) ?_
      rw [first.formed.balanced_append]
      exact second.formed.balanced

theorem Program.formed_of_derivesAll :
    ∀ {body : List Program} {parts : List (List Char)},
      List.Forall₂ Program.Derives parts body → ∀ part ∈ parts, Formed part
  | [], _, .nil => fun part hpart => absurd hpart List.not_mem_nil
  | p :: ps, _, .cons head tail => by
      intro part hpart
      rcases List.mem_cons.mp hpart with rfl | hmem
      · exact head.formed
      · exact Program.formed_of_derivesAll tail part hmem

end

/-! ### White space around a text -/

/-- What a text stands for depends only on how it can be framed. -/
theorem Condition.Derives.reframe {c : Condition} {cs ds : List Char} (h : Condition.Derives cs c)
    (hf : ∀ {word inside}, Framed word inside cs → Framed word inside ds) :
    Condition.Derives ds c := by
  cases h with
  | constant framed => exact .constant (hf framed)
  | sensor framed => exact .sensor (hf framed)
  | energyAtLeast blanks separated isWord read finite framed =>
      exact .energyAtLeast blanks separated isWord read finite (hf framed)
  | and each framed => exact .and each (hf framed)
  | or each framed => exact .or each (hf framed)
  | not only framed => exact .not only (hf framed)

theorem Program.Derives.reframe {p : Program} {cs ds : List Char} (h : Program.Derives cs p)
    (hf : ∀ {word inside}, Framed word inside cs → Framed word inside ds) :
    Program.Derives ds p := by
  cases h with
  | act framed => exact .act (hf framed)
  | seq each framed => exact .seq each (hf framed)
  | branch first second third framed => exact .branch first second third (hf framed)
  | loop first second framed => exact .loop first second (hf framed)

theorem Condition.Derives.blanks_append {c : Condition} {gap cs : List Char} (hg : Blanks gap)
    (h : Condition.Derives cs c) : Condition.Derives (gap ++ cs) c :=
  h.reframe (Framed.blanks_append hg)

theorem Program.Derives.blanks_append {p : Program} {gap cs : List Char} (hg : Blanks gap)
    (h : Program.Derives cs p) : Program.Derives (gap ++ cs) p :=
  h.reframe (Framed.blanks_append hg)

theorem Program.Derives.append_blanks {p : Program} {gap cs : List Char} (hg : Blanks gap)
    (h : Program.Derives cs p) : Program.Derives (cs ++ gap) p :=
  h.reframe (Framed.append_blanks hg)

end RobotControl
