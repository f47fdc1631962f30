import RobotControl.Proofs.Source.Levels

/-!
Faults are local.

A text that is one form is read inside another form as it is read alone: taking the surroundings
apart cuts exactly at its parentheses, and its one level less makes no difference while there is one
to spare. So a form answers with the trees of its arguments, or with the fault of the first of them
that has one.

* `applied`: a form written out with its arguments.
* `openForm_applied`: its arguments are found as they were written.
* `readCondition_of_piece`, `readProgram_of_piece`: an argument is read as it is read alone.
* `FirstFault`: the trees of all texts, or the first fault among them.
* `applied_reports_first_fault`: each production with arguments answers so.
-/

namespace RobotControl

open Source Text

namespace Source

/-- A form written with a blank before each argument. -/
def applied (tag : String) (parts : List String) : String :=
  "(" ++ tag ++ " " ++ " ".intercalate parts ++ ")"

/-- One pair of parentheses around balanced text, in which parentheses nest at most 254 deep. -/
structure Piece (part : String) : Prop where
  enclosed : Enclosed part.toList
  nests : NestsWithin 254 part.toList

/-! ### Arguments as they were written -/

theorem cons_intercalate_blank (x : List Char) (xs : List (List Char)) :
    ' ' :: [' '].intercalate (x :: xs) = ((x :: xs).map (' ' :: ·)).flatten := by
  induction xs generalizing x with
  | nil => simp
  | cons y ys ih =>
      rw [List.map_cons, List.flatten_cons, ← ih]
      simp [List.intercalate]

theorem framed_applied {tag : String} (parts : List String)
    (htag : tag.toList.map Char.toLower = tag.toList) :
    Framed tag ((parts.map String.toList).map (' ' :: ·)).flatten (applied tag parts).toList := by
  cases parts with
  | nil =>
      refine ⟨[], [], tag.toList, [' '], [], Blanks.nil, Blanks.nil, blanks_space, Blanks.nil, htag, ?_⟩
      simp [applied]
  | cons part parts =>
      refine ⟨[], [], tag.toList, [], [], Blanks.nil, Blanks.nil, Blanks.nil, Blanks.nil, htag, ?_⟩
      rw [List.map_cons, ← cons_intercalate_blank]
      simp [applied, String.toList_intercalate]

theorem Piece.formed {part : String} (h : Piece part) : Formed (' ' :: part.toList) :=
  ⟨[' '], part.toList, [], blanks_space, h.enclosed, Blanks.nil, by simp⟩

theorem Piece.trim_eq {part : String} (h : Piece part) : trim (' ' :: part.toList) = part.toList := by
  have htrim := h.enclosed.trim_surrounded blanks_space Blanks.nil
  rwa [List.append_nil] at htrim

section Applied

variable {tag : String} {parts : List String}

theorem formed_of_pieces (h : ∀ part ∈ parts, Piece part) :
    ∀ cs ∈ (parts.map String.toList).map (' ' :: ·), Formed cs := by
  intro cs hcs
  rw [List.map_map, List.mem_map] at hcs
  obtain ⟨part, hpart, rfl⟩ := hcs
  exact (h part hpart).formed

/-- **The arguments are found as they were written.** -/
theorem openForm_applied (expected : Production) (htag : tag.toList.map Char.toLower = tag.toList)
    (hword : Word tag.toList) (h : ∀ part ∈ parts, Piece part) :
    openForm expected (applied tag parts).toList =
      .ok ⟨trim (applied tag parts).toList, tag, parts.map String.toList⟩ := by
  rw [openForm_of_framed_flatten expected (framed_applied parts htag) hword (formed_of_pieces h),
    List.map_map, List.map_map]
  congr 2
  exact List.map_congr_left fun part hpart => (h part hpart).trim_eq

theorem balanced_applied (htag : tag.toList.map Char.toLower = tag.toList)
    (hword : Word tag.toList) (h : ∀ part ∈ parts, Piece part) :
    balanced (applied tag parts).toList :=
  ((framed_applied parts htag).formed hword (balanced_flatten (formed_of_pieces h))).balanced

end Applied

/-! ### Arguments read alone -/

theorem Piece.balanced {part : String} (h : Piece part) : balanced part.toList :=
  balanced_of_enclosed_or_word (.inl h.enclosed)

/-- **An argument is read as it is read alone**, where one level is taken by the form around it. -/
theorem readCondition_of_piece {part : String} (h : Piece part) :
    readCondition 255 part.toList = Condition.read part := by
  rw [Condition.read_of_balanced h.balanced]
  exact readCondition_of_lt h.nests (by decide) (by decide)

theorem readProgram_of_piece {part : String} (h : Piece part) :
    readProgram 255 part.toList = Program.read part := by
  rw [Program.read_of_balanced h.balanced]
  exact readProgram_of_lt h.nests (by decide) (by decide)

theorem mapM_of_pieces {α : Type} {reader : List Char → Except SyntaxError α}
    {read : String → Except SyntaxError α} {parts : List String}
    (h : ∀ part ∈ parts, reader part.toList = read part) :
    (parts.map String.toList).mapM reader = parts.mapM read := by
  induction parts with
  | nil => rfl
  | cons part parts ih =>
      rw [List.map_cons, List.mapM_cons, List.mapM_cons, h part List.mem_cons_self,
        ih fun other hother => h other (List.mem_cons_of_mem part hother)]

/-! ### One production -/

section Productions

variable {parts : List String} {first second third : String}

theorem read_applied_seq (h : ∀ part ∈ parts, Piece part) :
    Program.read (applied "seq" parts) = (do return .seq (← parts.mapM Program.read)) := by
  rw [Program.read_of_balanced (balanced_applied (by decide) (by decide) h), maxDepth,
    readProgram_seq (openForm_applied .program (by decide) (by decide) h),
    mapM_of_pieces fun part hpart => readProgram_of_piece (h part hpart)]

theorem read_applied_and (h : ∀ part ∈ parts, Piece part) :
    Condition.read (applied "and" parts) = (do return .and (← parts.mapM Condition.read)) := by
  rw [Condition.read_of_balanced (balanced_applied (by decide) (by decide) h), maxDepth,
    readCondition_and (openForm_applied .condition (by decide) (by decide) h),
    mapM_of_pieces fun part hpart => readCondition_of_piece (h part hpart)]

theorem read_applied_or (h : ∀ part ∈ parts, Piece part) :
    Condition.read (applied "or" parts) = (do return .or (← parts.mapM Condition.read)) := by
  rw [Condition.read_of_balanced (balanced_applied (by decide) (by decide) h), maxDepth,
    readCondition_or (openForm_applied .condition (by decide) (by decide) h),
    mapM_of_pieces fun part hpart => readCondition_of_piece (h part hpart)]

theorem read_applied_not (h : Piece first) :
    Condition.read (applied "not" [first]) = (do return .not (← Condition.read first)) := by
  have hparts : ∀ part ∈ [first], Piece part := by simp [h]
  rw [Condition.read_of_balanced (balanced_applied (by decide) (by decide) hparts), maxDepth,
    readCondition_not (openForm_applied .condition (by decide) (by decide) hparts),
    readCondition_of_piece h]

theorem read_applied_while (htest : Piece first) (hbody : Piece second) :
    Program.read (applied "while" [first, second]) =
      (do return .loop (← Condition.read first) (← Program.read second)) := by
  have hparts : ∀ part ∈ [first, second], Piece part := by simp [htest, hbody]
  rw [Program.read_of_balanced (balanced_applied (by decide) (by decide) hparts), maxDepth,
    readProgram_while (openForm_applied .program (by decide) (by decide) hparts),
    readCondition_of_piece htest, readProgram_of_piece hbody]

theorem read_applied_if (htest : Piece first) (hthen : Piece second) (helse : Piece third) :
    Program.read (applied "if" [first, second, third]) =
      (do return .branch (← Condition.read first) (← Program.read second)
            (← Program.read third)) := by
  have hparts : ∀ part ∈ [first, second, third], Piece part := by simp [htest, hthen, helse]
  rw [Program.read_of_balanced (balanced_applied (by decide) (by decide) hparts), maxDepth,
    readProgram_if (openForm_applied .program (by decide) (by decide) hparts),
    readCondition_of_piece htest, readProgram_of_piece hthen, readProgram_of_piece helse]

end Productions

/-! ### The first fault -/

/-- The answer puts the trees of all texts together, or it is the fault of the first text that has
one. -/
structure FirstFault {α β : Type} (read : String → Except SyntaxError α) (parts : List String)
    (whole : List α → β) (answer : Except SyntaxError β) : Prop where
  trees : ∀ trees, List.Forall₂ (fun part tree => read part = .ok tree) parts trees →
    answer = .ok (whole trees)
  fault : ∀ before part behind e, parts = before ++ part :: behind →
    (∀ earlier ∈ before, ∃ tree, read earlier = .ok tree) → read part = .error e →
      answer = .error e

/-- Reading texts one after another stops at the first fault. -/
theorem firstFault_mapM {α β : Type} (read : String → Except SyntaxError α) (parts : List String)
    (whole : List α → β) : FirstFault read parts whole (do return whole (← parts.mapM read)) where
  trees trees h := by
    rw [mapM_eq_ok_iff.mpr h]
    rfl
  fault before part behind e hparts hbefore h := by
    rw [hparts, mapM_of_fault hbefore h]
    rfl

end Source

/-- **A form with arguments reports the first fault among them.** Each argument is one form, nested
at most 254 levels deep, and it is read by its own production, from left to right: if all of them are
read, the form is read as what its tag makes of their trees, and else the answer is what the first of
them that cannot be read answers when it is read alone. -/
theorem applied_reports_first_fault :
    (∀ parts, (∀ part ∈ parts, Piece part) →
      FirstFault Program.read parts Program.seq (Program.read (applied "seq" parts)) ∧
        FirstFault Condition.read parts Condition.and (Condition.read (applied "and" parts)) ∧
        FirstFault Condition.read parts Condition.or (Condition.read (applied "or" parts))) ∧
      (∀ operand, Piece operand → Condition.read (applied "not" [operand]) =
        (do return .not (← Condition.read operand))) ∧
      (∀ test body, Piece test → Piece body → Program.read (applied "while" [test, body]) =
        (do return .loop (← Condition.read test) (← Program.read body))) ∧
      ∀ test thenPart elsePart, Piece test → Piece thenPart → Piece elsePart →
        Program.read (applied "if" [test, thenPart, elsePart]) =
          (do return .branch (← Condition.read test) (← Program.read thenPart)
                (← Program.read elsePart)) := by
  refine ⟨fun parts h => ⟨?_, ?_, ?_⟩, fun _ => read_applied_not, fun _ _ => read_applied_while,
    fun _ _ _ => read_applied_if⟩
  · rw [read_applied_seq h]
    exact firstFault_mapM Program.read parts Program.seq
  · rw [read_applied_and h]
    exact firstFault_mapM Condition.read parts Condition.and
  · rw [read_applied_or h]
    exact firstFault_mapM Condition.read parts Condition.or

/-- A program that is none, between two that are: the sequence is refused for it, whatever else the
sequence holds. -/
theorem applied_reports_first_fault_flight :
    (∀ part ∈ ["(move)", "(fly)", "(seq go)"], Piece part) ∧
      Program.read "(seq (move) (fly) (seq go))" = .error (.unrecognized .program "(fly)") := by
  have henclosed (inside : List Char) (h : balanced inside) : Enclosed ('(' :: (inside ++ [')'])) :=
    ⟨inside, h, rfl⟩
  have hparts : ∀ part ∈ ["(move)", "(fly)", "(seq go)"], Piece part := by
    intro part hpart
    simp only [List.mem_cons, List.not_mem_nil, or_false] at hpart
    rcases hpart with rfl | rfl | rfl
    · exact ⟨henclosed "move".toList rfl, by decide⟩
    · exact ⟨henclosed "fly".toList rfl, by decide⟩
    · exact ⟨henclosed "seq go".toList rfl, by decide⟩
  refine ⟨hparts, ?_⟩
  have hmove : Program.read "(move)" = .ok (.act .move) := by
    have framed : Framed Action.move.keyword [] "(move)".toList :=
      ⟨[], [], "move".toList, [], [], by decide⟩
    exact Program.read_text_of_derives (.act framed)
  have hfly : Program.read "(fly)" = .error (.unrecognized .program "(fly)") := by
    have framed : Framed "fly" [] "(fly)".toList := ⟨[], [], "fly".toList, [], [], by decide⟩
    rw [Program.read_of_balanced (by decide), maxDepth, readProgram_succ,
      openForm_of_framed_nil .program framed (by decide)]
    rfl
  refine (applied_reports_first_fault.1 _ hparts).1.fault ["(move)"] "(fly)" ["(seq go)"] _ rfl
    ?_ hfly
  intro earlier hearlier
  rw [List.mem_singleton.mp hearlier]
  exact ⟨_, hmove⟩

end RobotControl
