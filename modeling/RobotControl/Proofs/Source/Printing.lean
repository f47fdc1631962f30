import RobotControl.Proofs.Decimal.RoundTrip
import RobotControl.Proofs.Source.Reading
import RobotControl.Source.Printer

/-!
Printed texts.

A printed text stands for the tree it was printed from, on one line or on several.

* `Condition.amounts`, `Program.amounts`: the numbers in a tree.
* `Condition.derives_compact`, `Program.derives_compact`: the compact text of a tree stands for it,
  if each of its numbers reads back.
* `Program.derives_indented`: so does the indented text.
* `Condition.Derives.finite`, `Program.Derives.finite`: only finite numbers are written in programs.
-/

namespace RobotControl

open Source Text

/-! ### Numbers of a tree -/

mutual

/-- The amounts that a condition compares with. -/
def Condition.amounts : Condition → List Float
  | .constant _ => []
  | .sensor _ => []
  | .energyAtLeast amount => [amount]
  | .and operands => Condition.amountsOf operands
  | .or operands => Condition.amountsOf operands
  | .not operand => operand.amounts

def Condition.amountsOf : List Condition → List Float
  | [] => []
  | c :: cs => c.amounts ++ Condition.amountsOf cs

end

mutual

/-- The amounts in the conditions of a program. -/
def Program.amounts : Program → List Float
  | .act _ => []
  | .seq body => Program.amountsOf body
  | .branch test thenPart elsePart => test.amounts ++ (thenPart.amounts ++ elsePart.amounts)
  | .loop test body => test.amounts ++ body.amounts

def Program.amountsOf : List Program → List Float
  | [] => []
  | p :: ps => p.amounts ++ Program.amountsOf ps

end

/-! ### Frames -/

namespace Source

/-- A tag in its parentheses, with no white space but what the arguments bring along. -/
theorem framed_tight {word : String} (tag inside : List Char)
    (htag : tag.map Char.toLower = word.toList) :
    Framed word inside ('(' :: (tag ++ inside) ++ [')']) := by
  refine ⟨[], [], tag, [], [], Blanks.nil, Blanks.nil, Blanks.nil, Blanks.nil, htag, ?_⟩
  simp

theorem blanks_newline : Blanks ['\n'] := by decide

theorem blanks_indent (depth : Nat) : Blanks (indent depth) := by
  intro c hc
  rw [List.eq_of_mem_replicate hc]
  rfl

/-- A keyword alone in its parentheses has no arguments. -/
theorem framed_bare {word : String} (htag : word.toList.map Char.toLower = word.toList) :
    Framed word [] (bare word) := by
  have h := framed_tight _ [] htag
  rwa [List.append_nil] at h

end Source

/-! ### Texts of numbers -/

namespace Decimal

theorem inTag_of_isDigit {c : Char} (h : c.isDigit) : inTag c := by
  obtain ⟨above, below⟩ := isDigit_bounds h
  exact inTag_of_ascii (by omega) (by omega)

theorem Pointed.word {cs whole fraction : List Char} (h : Pointed cs whole fraction) : Word cs := by
  constructor
  · obtain ⟨c, rest, rfl, -⟩ := h.exists_cons
    exact List.cons_ne_nil _ _
  · obtain ⟨hwhole, -, hfraction, htext⟩ := h
    intro c hc
    rcases htext with ⟨rfl, -⟩ | rfl
    · exact inTag_of_isDigit (hwhole c hc)
    · rcases List.mem_append.mp hc with h | h
      · exact inTag_of_isDigit (hwhole c h)
      · rcases List.mem_cons.mp h with rfl | h
        · rfl
        · exact inTag_of_isDigit (hfraction c h)

theorem word_positional {n : Numeral} (h : Digits n.digits) : Word n.positional := by
  by_cases hne : n.digits = []
  · have hzero : n.positional = ['0'] := if_pos (List.isEmpty_iff.mpr hne)
    rw [hzero]
    decide
  · obtain ⟨whole, fraction, hpointed, -⟩ := Numeral.exists_pointed h hne
    exact hpointed.word

theorem word_signedText {cs : List Char} (negative : Bool) (h : Word cs) :
    Word (signedText negative cs) := by
  cases negative with
  | false => exact h
  | true =>
      refine ⟨List.cons_ne_nil _ _, ?_⟩
      intro c hc
      rcases List.mem_cons.mp hc with rfl | hc
      · rfl
      · exact h.2 c hc

/-- **The text of a number is one word**: it has no white space and no parenthesis. -/
theorem word_plain (x : Float) : Word (plain x) := by
  unfold plain
  cases magnitude x with
  | notANumber => exact (by decide : Word ['N', 'a', 'N'])
  | infinite => exact word_signedText (isNegative x) (by decide)
  | finite value =>
      exact word_signedText (isNegative x) (word_positional (Numeral.digits_ofNat _ _))

end Decimal

/-! ### The compact text -/

theorem Condition.compactAll_eq (cs : List Condition) :
    Condition.compactAll cs = (cs.map fun c => [' '] ++ c.compact).flatten := by
  induction cs with
  | nil => rfl
  | cons c cs ih => rw [Condition.compactAll, ih, List.map_cons, List.flatten_cons]; rfl

theorem Program.compactAll_eq (ps : List Program) :
    Program.compactAll ps = (ps.map fun p => [' '] ++ p.compact).flatten := by
  induction ps with
  | nil => rfl
  | cons p ps ih => rw [Program.compactAll, ih, List.map_cons, List.flatten_cons]; rfl

theorem Program.indentedAll_eq (depth : Nat) (ps : List Program) :
    Program.indentedAll depth ps = (ps.map fun p => ['\n'] ++ p.indented depth).flatten := by
  induction ps with
  | nil => rfl
  | cons p ps ih => rw [Program.indentedAll, ih, List.map_cons, List.flatten_cons]; rfl

mutual

/-- **The compact text of a condition stands for it.** -/
theorem Condition.derives_compact :
    ∀ c : Condition, (∀ x ∈ c.amounts, x.isFinite) → Condition.Derives c.compact c
  | .constant true, _ => .constant (framed_bare rfl)
  | .constant false, _ => .constant (framed_bare rfl)
  | .sensor s, _ => .sensor (framed_bare (by cases s <;> rfl))
  | .energyAtLeast amount, h => by
      have hfinite : amount.isFinite := h amount List.mem_cons_self
      refine .energyAtLeast blanks_space (List.cons_ne_nil _ _) (Decimal.word_plain amount)
        (Decimal.read?_plain hfinite) hfinite ?_
      exact framed_tight "energy-at-least".toList _ (by decide)
  | .and operands, h => by
      refine .and (Condition.derivesAll_compactAll operands h) ?_
      rw [← Condition.compactAll_eq]
      exact framed_tight ['a', 'n', 'd'] _ rfl
  | .or operands, h => by
      refine .or (Condition.derivesAll_compactAll operands h) ?_
      rw [← Condition.compactAll_eq]
      exact framed_tight ['o', 'r'] _ rfl
  | .not operand, h => by
      have hoperand := (Condition.derives_compact operand h).blanks_append blanks_space
      exact .not hoperand (framed_tight ['n', 'o', 't'] _ rfl)

theorem Condition.derivesAll_compactAll :
    ∀ cs : List Condition, (∀ x ∈ Condition.amountsOf cs, x.isFinite) →
      List.Forall₂ Condition.Derives (cs.map fun c => [' '] ++ c.compact) cs
  | [], _ => .nil
  | c :: cs, h => by
      have hhead := Condition.derives_compact c fun x hx => h x (List.mem_append_left _ hx)
      have htail := Condition.derivesAll_compactAll cs fun x hx => h x (List.mem_append_right _ hx)
      exact .cons (hhead.blanks_append blanks_space) htail

end

mutual

/-- **The compact text of a program stands for it.** -/
theorem Program.derives_compact :
    ∀ p : Program, (∀ x ∈ p.amounts, x.isFinite) → Program.Derives p.compact p
  | .act a, _ => .act (framed_bare (by cases a <;> rfl))
  | .seq body, h => by
      refine .seq (Program.derivesAll_compactAll body h) ?_
      rw [← Program.compactAll_eq]
      exact framed_tight ['s', 'e', 'q'] _ rfl
  | .branch test thenPart elsePart, h => by
      have htest := Condition.derives_compact test fun x hx => h x (List.mem_append_left _ hx)
      have hthen := Program.derives_compact thenPart fun x hx =>
        h x (List.mem_append_right _ (List.mem_append_left _ hx))
      have helse := Program.derives_compact elsePart fun x hx =>
        h x (List.mem_append_right _ (List.mem_append_right _ hx))
      refine .branch (htest.blanks_append blanks_space) (hthen.blanks_append blanks_space)
        (helse.blanks_append blanks_space) ?_
      have hframed : Framed "if" _ _ := framed_tight ['i', 'f'] ([' '] ++ test.compact ++
        ([' '] ++ thenPart.compact ++ ([' '] ++ elsePart.compact))) rfl
      simpa [Program.compact] using hframed
  | .loop test body, h => by
      have htest := Condition.derives_compact test fun x hx => h x (List.mem_append_left _ hx)
      have hbody := Program.derives_compact body fun x hx => h x (List.mem_append_right _ hx)
      refine .loop (htest.blanks_append blanks_space) (hbody.blanks_append blanks_space) ?_
      have hframed : Framed "while" _ _ := framed_tight ['w', 'h', 'i', 'l', 'e']
        ([' '] ++ test.compact ++ ([' '] ++ body.compact)) rfl
      simpa [Program.compact] using hframed

theorem Program.derivesAll_compactAll :
    ∀ ps : List Program, (∀ x ∈ Program.amountsOf ps, x.isFinite) →
      List.Forall₂ Program.Derives (ps.map fun p => [' '] ++ p.compact) ps
  | [], _ => .nil
  | p :: ps, h => by
      have hhead := Program.derives_compact p fun x hx => h x (List.mem_append_left _ hx)
      have htail := Program.derivesAll_compactAll ps fun x hx => h x (List.mem_append_right _ hx)
      exact .cons (hhead.blanks_append blanks_space) htail

end

/-! ### The indented text -/

mutual

/-- **The indented text of a program stands for it**, however far in it begins. -/
theorem Program.derives_indented :
    ∀ (depth : Nat) (p : Program), (∀ x ∈ p.amounts, x.isFinite) →
      Program.Derives (p.indented depth) p
  | depth, .act a, _ => by
      have hframed : Framed a.keyword [] (bare a.keyword) := framed_bare (by cases a <;> rfl)
      exact .act (hframed.blanks_append (blanks_indent depth))
  | depth, .seq body, h => by
      refine .seq (Program.derivesAll_indentedAll (depth + 1) body h) ?_
      rw [← Program.indentedAll_eq]
      have hframed : Framed "seq" _ _ :=
        framed_tight ['s', 'e', 'q'] (Program.indentedAll (depth + 1) body) rfl
      simpa [Program.indented] using hframed.blanks_append (blanks_indent depth)
  | depth, .branch test thenPart elsePart, h => by
      have htest := Condition.derives_compact test fun x hx => h x (List.mem_append_left _ hx)
      have hthen := Program.derives_indented (depth + 1) thenPart fun x hx =>
        h x (List.mem_append_right _ (List.mem_append_left _ hx))
      have helse := Program.derives_indented (depth + 1) elsePart fun x hx =>
        h x (List.mem_append_right _ (List.mem_append_right _ hx))
      refine .branch (htest.blanks_append blanks_space) (hthen.blanks_append blanks_newline)
        (helse.blanks_append blanks_newline) ?_
      have hframed : Framed "if" _ _ := framed_tight ['i', 'f'] ([' '] ++ test.compact ++
        (['\n'] ++ thenPart.indented (depth + 1) ++ (['\n'] ++ elsePart.indented (depth + 1)))) rfl
      simpa [Program.indented] using hframed.blanks_append (blanks_indent depth)
  | depth, .loop test body, h => by
      have htest := Condition.derives_compact test fun x hx => h x (List.mem_append_left _ hx)
      have hbody := Program.derives_indented (depth + 1) body fun x hx =>
        h x (List.mem_append_right _ hx)
      refine .loop (htest.blanks_append blanks_space) (hbody.blanks_append blanks_newline) ?_
      have hframed : Framed "while" _ _ := framed_tight ['w', 'h', 'i', 'l', 'e']
        ([' '] ++ test.compact ++ (['\n'] ++ body.indented (depth + 1))) rfl
      simpa [Program.indented] using hframed.blanks_append (blanks_indent depth)

theorem Program.derivesAll_indentedAll :
    ∀ (depth : Nat) (ps : List Program), (∀ x ∈ Program.amountsOf ps, x.isFinite) →
      List.Forall₂ Program.Derives (ps.map fun p => ['\n'] ++ p.indented depth) ps
  | _, [], _ => .nil
  | depth, p :: ps, h => by
      have hhead := Program.derives_indented depth p fun x hx => h x (List.mem_append_left _ hx)
      have htail := Program.derivesAll_indentedAll depth ps fun x hx =>
        h x (List.mem_append_right _ hx)
      exact .cons (hhead.blanks_append blanks_newline) htail

end

/-! ### What is read is finite -/

mutual

/-- Only finite amounts are written in conditions. -/
theorem Condition.Derives.finite :
    ∀ {c : Condition} {cs : List Char}, Condition.Derives cs c → ∀ x ∈ c.amounts, x.isFinite
  | .constant _, _, _ => fun x hx => absurd hx List.not_mem_nil
  | .sensor _, _, _ => fun x hx => absurd hx List.not_mem_nil
  | .energyAtLeast amount, _, .energyAtLeast _ _ _ _ finite _ => by
      intro x hx
      rwa [List.mem_singleton.mp hx]
  | .and operands, _, .and each _ => Condition.finite_of_derivesAll each
  | .or operands, _, .or each _ => Condition.finite_of_derivesAll each
  | .not operand, _, .not only _ => only.finite

theorem Condition.finite_of_derivesAll :
    ∀ {operands : List Condition} {parts : List (List Char)},
      List.Forall₂ Condition.Derives parts operands →
        ∀ x ∈ Condition.amountsOf operands, x.isFinite
  | [], _, _ => fun x hx => absurd hx List.not_mem_nil
  | c :: cs, _, .cons head tail => by
      intro x hx
      rcases List.mem_append.mp hx with h | h
      · exact head.finite x h
      · exact Condition.finite_of_derivesAll tail x h

end

mutual

/-- Only finite amounts are written in programs. -/
theorem Program.Derives.finite :
    ∀ {p : Program} {cs : List Char}, Program.Derives cs p → ∀ x ∈ p.amounts, x.isFinite
  | .act _, _, _ => fun x hx => absurd hx List.not_mem_nil
  | .seq body, _, .seq each _ => Program.finite_of_derivesAll each
  | .branch test thenPart elsePart, _, .branch first second third _ => by
      intro x hx
      rcases List.mem_append.mp hx with h | h
      · exact first.finite x h
      · rcases List.mem_append.mp h with h | h
        · exact second.finite x h
        · exact third.finite x h
  | .loop test body, _, .loop first second _ => by
      intro x hx
      rcases List.mem_append.mp hx with h | h
      · exact first.finite x h
      · exact second.finite x h

theorem Program.finite_of_derivesAll :
    ∀ {body : List Program} {parts : List (List Char)},
      List.Forall₂ Program.Derives parts body → ∀ x ∈ Program.amountsOf body, x.isFinite
  | [], _, _ => fun x hx => absurd hx List.not_mem_nil
  | p :: ps, _, .cons head tail => by
      intro x hx
      rcases List.mem_append.mp hx with h | h
      · exact head.finite x h
      · exact Program.finite_of_derivesAll tail x h

end

end RobotControl
