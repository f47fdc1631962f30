import RobotControl.Proofs.Source.Printing

/-!
The two layouts of a program.

A program is written on one line or on several. Both are the same text up to white space, and the
lines of the indented text are the nodes of the program from the first to the last, each as far in
as it lies below the root. Conditions have no lines of their own.

Both facts are by induction over the program. A line stays open until the nodes above it are closed,
so they are stated for the text of a program in front of more: of any text for the first, of closing
parentheses for the second.

* `Source.joinLines`: a text on one line.
* `Program.joins_indented`: the indented text on one line is the compact text.
* `Program.nodes`: the nodes of a program in pre-order, with their depths.
* `Program.IsLine`, `Program.lines_indented`: each node has one line, in this order.
* `Program.layoutText_lines`: both together.
-/

namespace RobotControl

open Source

/-! ### Lines -/

namespace Source

variable {cs : List Char}

/-- Each line break, with the blanks behind it, in place of one blank. -/
def joinLines : List Char → List Char
  | [] => []
  | c :: cs =>
    if c = '\n' then ' ' :: joinLines (cs.dropWhile (· = ' ')) else c :: joinLines cs
termination_by cs => cs.length
decreasing_by
  · exact Nat.lt_succ_of_le (List.dropWhile_suffix _).length_le
  · exact Nat.lt_succ_self _

theorem joinLines_nil : joinLines [] = [] := by
  rw [joinLines]

theorem joinLines_cons_of_ne {c : Char} (h : c ≠ '\n') (cs : List Char) :
    joinLines (c :: cs) = c :: joinLines cs := by
  rw [joinLines, if_neg h]

theorem joinLines_newline (cs : List Char) :
    joinLines ('\n' :: cs) = ' ' :: joinLines (cs.dropWhile (· = ' ')) := by
  rw [joinLines, if_pos rfl]

/-- What is on one line stays as it is. -/
theorem joinLines_append (h : '\n' ∉ cs) (ds : List Char) :
    joinLines (cs ++ ds) = cs ++ joinLines ds := by
  induction cs with
  | nil => rfl
  | cons c cs ih =>
      rw [List.mem_cons, not_or] at h
      rw [List.cons_append, joinLines_cons_of_ne (Ne.symm h.1), ih h.2, List.cons_append]

theorem newline_not_mem_indent (depth : Nat) : '\n' ∉ indent depth := by
  simp [indent]

theorem newline_not_mem_bare {keyword : String} (h : '\n' ∉ keyword.toList) :
    '\n' ∉ bare keyword := by
  simp [bare, h]

theorem newline_not_mem_framed {opening inside : List Char} (hopening : '\n' ∉ opening)
    (hinside : '\n' ∉ inside) : '\n' ∉ opening ++ inside ++ [')'] := by
  simp [hopening, hinside]

/-- The blanks at the beginning of a line go with the line break. -/
theorem joinLines_newline_indent (depth : Nat) (cs : List Char) :
    joinLines ('\n' :: (indent depth ++ '(' :: cs)) = ' ' :: joinLines ('(' :: cs) := by
  have blanks : ∀ c ∈ indent depth, decide (c = ' ') := by simp [indent]
  rw [joinLines_newline, List.dropWhile_append_of_pos blanks]
  rfl

end Source

/-! ### Conditions are on one line -/

theorem Decimal.newline_not_mem_plain (x : Float) : '\n' ∉ Decimal.plain x := by
  intro h
  have tag := (Decimal.word_plain x).2 _ h
  cases tag

mutual

theorem Condition.newline_not_mem_compact : ∀ c : Condition, '\n' ∉ c.compact
  | .constant true => newline_not_mem_bare (by decide : '\n' ∉ "true".toList)
  | .constant false => newline_not_mem_bare (by decide : '\n' ∉ "false".toList)
  | .sensor which => newline_not_mem_bare (by cases which <;> decide)
  | .energyAtLeast amount =>
      newline_not_mem_framed (by decide : '\n' ∉ "(energy-at-least ".toList)
        (Decimal.newline_not_mem_plain amount)
  | .and operands =>
      newline_not_mem_framed (by decide : '\n' ∉ ['(', 'a', 'n', 'd'])
        (Condition.newline_not_mem_compactAll operands)
  | .or operands =>
      newline_not_mem_framed (by decide : '\n' ∉ ['(', 'o', 'r'])
        (Condition.newline_not_mem_compactAll operands)
  | .not operand =>
      newline_not_mem_framed (by decide : '\n' ∉ ['(', 'n', 'o', 't', ' '])
        operand.newline_not_mem_compact

theorem Condition.newline_not_mem_compactAll :
    ∀ cs : List Condition, '\n' ∉ Condition.compactAll cs
  | [] => List.not_mem_nil
  | c :: cs => by
      simp [Condition.compactAll, c.newline_not_mem_compact,
        Condition.newline_not_mem_compactAll cs]

end

/-! ### The indented text on one line -/

namespace Program

/-- The indented text of a program begins with the blanks of its depth and a parenthesis. -/
theorem exists_indented (depth : Nat) (p : Program) :
    ∃ rest, p.indented depth = indent depth ++ '(' :: rest := by
  cases p with
  | act action => exact ⟨_, rfl⟩
  | seq body => simp [indented]
  | branch test thenPart elsePart => simp [indented]
  | loop test body => simp [indented]

/-- `flat` is `text` on one line, whatever follows them. -/
def Joins (text flat : List Char) : Prop :=
  ∀ ds, joinLines (text ++ ds) = flat ++ joinLines ds

namespace Joins

variable {text flat : List Char}

theorem line (h : '\n' ∉ text) : Joins text text :=
  joinLines_append h

theorem close (h : Joins text flat) : Joins (text ++ [')']) (flat ++ [')']) := by
  intro ds
  rw [List.append_assoc, h, List.singleton_append, joinLines_cons_of_ne (by decide),
    List.append_assoc, List.singleton_append]

/-- A program on the next line is the program behind one blank. -/
theorem below {depth : Nat} {p : Program} (h : Joins text flat)
    (hp : Joins (p.indented depth) (indent depth ++ p.compact)) :
    Joins (text ++ '\n' :: p.indented depth) (flat ++ ' ' :: p.compact) := by
  intro ds
  obtain ⟨rest, heq⟩ := p.exists_indented depth
  have behind : joinLines ('(' :: rest ++ ds) = p.compact ++ joinLines ds := by
    have whole := hp ds
    rwa [heq, List.append_assoc, joinLines_append (newline_not_mem_indent depth),
      List.append_assoc, List.append_cancel_left_eq] at whole
  calc joinLines (text ++ '\n' :: p.indented depth ++ ds)
      = flat ++ joinLines ('\n' :: (indent depth ++ '(' :: (rest ++ ds))) := by
        rw [List.append_assoc, h, heq, List.cons_append, List.append_assoc, List.cons_append]
    _ = flat ++ ' ' :: (p.compact ++ joinLines ds) := by
        rw [joinLines_newline_indent, ← List.cons_append, behind]
    _ = flat ++ ' ' :: p.compact ++ joinLines ds := by
        rw [List.append_assoc, List.cons_append]

end Joins

mutual

/-- **The indented text on one line is the compact text**, as far in as the first line is. -/
theorem joins_indented : ∀ (depth : Nat) (p : Program),
    Joins (p.indented depth) (indent depth ++ p.compact)
  | depth, .act action => by
      have word : '\n' ∉ bare action.keyword := newline_not_mem_bare (by cases action <;> decide)
      exact .line (List.not_mem_append (newline_not_mem_indent depth) word)
  | depth, .seq body => by
      have first : '\n' ∉ indent depth ++ ['(', 's', 'e', 'q'] := by
        simp [newline_not_mem_indent]
      have all := (joins_indentedAll (depth + 1) body (.line first)).close
      simpa [indented, compact] using all
  | depth, .branch test thenPart elsePart => by
      have first : '\n' ∉ indent depth ++ (['(', 'i', 'f', ' '] ++ test.compact) := by
        simp [newline_not_mem_indent, test.newline_not_mem_compact]
      have both := (Joins.line first).below (joins_indented (depth + 1) thenPart)
      have all := (both.below (joins_indented (depth + 1) elsePart)).close
      simpa [indented, compact] using all
  | depth, .loop test body => by
      have first :
          '\n' ∉ indent depth ++ (['(', 'w', 'h', 'i', 'l', 'e', ' '] ++ test.compact) := by
        simp [newline_not_mem_indent, test.newline_not_mem_compact]
      have all := ((Joins.line first).below (joins_indented (depth + 1) body)).close
      simpa [indented, compact] using all

theorem joins_indentedAll : ∀ (depth : Nat) (ps : List Program) {text flat : List Char},
    Joins text flat → Joins (text ++ indentedAll depth ps) (flat ++ compactAll ps)
  | _, [], _, _, h => by
      rw [indentedAll, compactAll, List.append_nil, List.append_nil]
      exact h
  | depth, p :: ps, _, _, h => by
      have rest := joins_indentedAll depth ps (h.below (joins_indented depth p))
      simpa [indentedAll, compactAll] using rest

end

/-! ### Lines and nodes -/

mutual

/-- The nodes of a program whose root is at `depth`, a node before those below it and these from
left to right, each with its depth. -/
def nodes (depth : Nat) : Program → List (Nat × Program)
  | .act action => [(depth, .act action)]
  | .seq body => (depth, .seq body) :: nodesOf (depth + 1) body
  | .branch test thenPart elsePart =>
    (depth, .branch test thenPart elsePart) ::
      (thenPart.nodes (depth + 1) ++ elsePart.nodes (depth + 1))
  | .loop test body => (depth, .loop test body) :: body.nodes (depth + 1)

def nodesOf (depth : Nat) : List Program → List (Nat × Program)
  | [] => []
  | p :: ps => p.nodes depth ++ nodesOf depth ps

end

/-- What is written of a node itself: everything before its parts. -/
def opening : Program → List Char
  | .act action => '(' :: action.keyword.toList
  | .seq _ => ['(', 's', 'e', 'q']
  | .branch test _ _ => ['(', 'i', 'f', ' '] ++ test.compact
  | .loop test _ => ['(', 'w', 'h', 'i', 'l', 'e', ' '] ++ test.compact

/-- `line` is the line of a node: the blanks of its depth, the node, and closing parentheses. -/
def IsLine (line : List Char) (node : Nat × Program) : Prop :=
  ∃ closed, line = indent node.1 ++ node.2.opening ++ List.replicate closed ')'

theorem opening_eq_cons (p : Program) : ∃ rest, p.opening = '(' :: rest := by
  cases p <;> exact ⟨_, rfl⟩

/-- The line of a node begins with exactly two blanks for each level. -/
theorem IsLine.blanks {line : List Char} {node : Nat × Program} (h : IsLine line node) :
    (line.takeWhile (· = ' ')).length = 2 * node.1 := by
  obtain ⟨closed, rfl⟩ := h
  obtain ⟨rest, heq⟩ := node.2.opening_eq_cons
  have blanks : ∀ c ∈ indent node.1, decide (c = ' ') := by simp [indent]
  rw [heq, List.append_assoc, List.takeWhile_append_of_pos blanks]
  simp [indent]

theorem newline_not_mem_opening (p : Program) : '\n' ∉ p.opening := by
  cases p with
  | act action => cases action <;> simp [opening, Action.keyword]
  | seq body => simp [opening]
  | branch test thenPart elsePart => simp [opening, test.newline_not_mem_compact]
  | loop test body => simp [opening, test.newline_not_mem_compact]

/-- `text` has a line for each of `nodes`. The last line is open: the parentheses of the nodes
above are closed behind it. -/
def Lines (text : List Char) (nodes : List (Nat × Program)) : Prop :=
  ∀ closed, List.Forall₂ IsLine ((text ++ List.replicate closed ')').splitOn '\n') nodes

namespace Lines

variable {text below : List Char} {ns ms : List (Nat × Program)}

theorem single (depth : Nat) (p : Program) : Lines (indent depth ++ p.opening) [(depth, p)] := by
  intro closed
  have line : '\n' ∉ indent depth ++ p.opening ++ List.replicate closed ')' := by
    simp [newline_not_mem_indent, p.newline_not_mem_opening]
  rw [List.splitOn_eq_singleton line]
  exact .cons ⟨closed, rfl⟩ .nil

theorem append (htext : Lines text ns) (hbelow : Lines below ms) :
    Lines (text ++ '\n' :: below) (ns ++ ms) := by
  intro closed
  have above := htext 0
  rw [List.replicate_zero, List.append_nil] at above
  rw [List.append_assoc, List.cons_append, List.splitOn_append_cons_self]
  exact List.rel_append above (hbelow closed)

theorem close (h : Lines text ns) : Lines (text ++ [')']) ns := by
  intro closed
  have lines := h (closed + 1)
  rw [List.append_assoc]
  exact lines

end Lines

mutual

/-- **Every node has a line of its own**, in pre-order. -/
theorem lines_indented : ∀ (depth : Nat) (p : Program), Lines (p.indented depth) (p.nodes depth)
  | depth, .act action => by
      have lines := (Lines.single depth (.act action)).close
      rw [List.append_assoc] at lines
      exact lines
  | depth, .seq body =>
      (lines_indentedAll (depth + 1) body (Lines.single depth (.seq body))).close
  | depth, .branch test thenPart elsePart => by
      have first := (Lines.single depth (.branch test thenPart elsePart)).append
        (lines_indented (depth + 1) thenPart)
      have all := (first.append (lines_indented (depth + 1) elsePart)).close
      simpa [opening, indented, nodes] using all
  | depth, .loop test body => by
      have all := ((Lines.single depth (.loop test body)).append
        (lines_indented (depth + 1) body)).close
      simpa [opening, indented, nodes] using all

theorem lines_indentedAll : ∀ (depth : Nat) (ps : List Program) {text : List Char}
    {ns : List (Nat × Program)}, Lines text ns →
      Lines (text ++ indentedAll depth ps) (ns ++ nodesOf depth ps)
  | _, [], _, _, h => by
      rw [indentedAll, nodesOf, List.append_nil, List.append_nil]
      exact h
  | depth, p :: ps, _, _, h => by
      have rest := lines_indentedAll depth ps (h.append (lines_indented depth p))
      simpa [indentedAll, nodesOf] using rest

end

/-- **The two layouts.** The indented text on one line is the compact text, and its lines are the
nodes of the program in pre-order, each two blanks further in for each level below the root. -/
theorem layoutText_lines (p : Program) :
    joinLines p.layoutText.toList = p.text.toList ∧
      List.Forall₂ IsLine (p.layoutText.toList.splitOn '\n') (p.nodes 0) ∧
      (p.layoutText.toList.splitOn '\n').map (fun line => (line.takeWhile (· = ' ')).length) =
        (p.nodes 0).map fun node => 2 * node.1 := by
  have joined : joinLines (p.indented 0) = p.compact := by
    simpa [indent, joinLines_nil] using joins_indented 0 p []
  have lines : List.Forall₂ IsLine ((p.indented 0).splitOn '\n') (p.nodes 0) := by
    simpa using lines_indented 0 p 0
  rw [layoutText, text, String.toList_ofList, String.toList_ofList]
  refine ⟨joined, lines, ?_⟩
  rw [← List.forall₂_eq_eq_eq, List.forall₂_map_left_iff, List.forall₂_map_right_iff]
  exact lines.imp fun _ _ => IsLine.blanks

end Program

end RobotControl
