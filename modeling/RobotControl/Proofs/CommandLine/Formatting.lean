import RobotControl.CommandLine.Response
import RobotControl.Proofs.Source.Printing

/-!
Formatting keeps the program.

Printing and reading undo each other on the trees that a text can stand for, so the formatted text
of a program is read as the program again, and formatting it once more changes nothing.

* `Program.read_text_eq`, `Program.read_layoutText_eq`, `Condition.read_text_eq`: a printed tree is
  read as this tree.
* `Program.bounds_of_read`, `Condition.bounds_of_read`: a tree that was read can be printed and
  read.
* `CommandLine.read_formatted`: so can it with the line end that the command line adds.
* `print_read_round_trip`: printing and reading undo each other, and formatting does no more than
  that.
-/

namespace RobotControl

open Source Text

/-! ### Printed trees -/

theorem Program.read_of_derives_ofList {p : Program} {cs : List Char} (h : Program.Derives cs p)
    (depth : p.depth ≤ maxDepth) : Program.read (String.ofList cs) = .ok p := by
  rw [← String.toList_ofList (l := cs)] at h
  rw [Program.read_text_of_derives h]
  exact if_pos depth

/-- The compact text of a program is read as the program. -/
theorem Program.read_text_eq {p : Program} (depth : p.depth ≤ maxDepth)
    (finite : ∀ x ∈ p.amounts, x.isFinite) : Program.read p.text = .ok p :=
  Program.read_of_derives_ofList (Program.derives_compact p finite) depth

/-- The indented text of a program is read as the program. -/
theorem Program.read_layoutText_eq {p : Program} (depth : p.depth ≤ maxDepth)
    (finite : ∀ x ∈ p.amounts, x.isFinite) : Program.read p.layoutText = .ok p :=
  Program.read_of_derives_ofList (Program.derives_indented 0 p finite) depth

/-- The text of a condition is read as the condition. -/
theorem Condition.read_text_eq {c : Condition} (depth : c.depth ≤ maxDepth)
    (finite : ∀ x ∈ c.amounts, x.isFinite) : Condition.read c.text = .ok c := by
  have h := Condition.derives_compact c finite
  rw [← String.toList_ofList (l := c.compact)] at h
  rw [Condition.text, Condition.read_text_of_derives h]
  exact if_pos depth

/-! ### Read trees -/

theorem Source.le_of_within_eq_ok {α : Type} {levels depth : ℕ} {a b : α}
    (h : within levels depth a = .ok b) : depth ≤ levels := by
  unfold within at h
  by_contra hdeep
  rw [if_neg hdeep] at h
  cases h

/-- A program that was read nests no deeper than allowed and has finite amounts. -/
theorem Program.bounds_of_read {p : Program} {text : String} (h : Program.read text = .ok p) :
    p.depth ≤ maxDepth ∧ ∀ x ∈ p.amounts, x.isFinite := by
  have hderives := Program.derives_of_read_text h
  rw [Program.read_text_of_derives hderives] at h
  exact ⟨le_of_within_eq_ok h, hderives.finite⟩

/-- A condition that was read nests no deeper than allowed and has finite amounts. -/
theorem Condition.bounds_of_read {c : Condition} {text : String} (h : Condition.read text = .ok c) :
    c.depth ≤ maxDepth ∧ ∀ x ∈ c.amounts, x.isFinite := by
  have hderives := Condition.derives_of_read_text h
  rw [Condition.read_text_of_derives hderives] at h
  exact ⟨le_of_within_eq_ok h, hderives.finite⟩

/-! ### Formatted programs -/

namespace CommandLine

/-- What formatting prints for a program. -/
def formatted (compact : Bool) (p : Program) : String :=
  lines [if compact then p.text else p.layoutText]

theorem formatted_toList (compact : Bool) (p : Program) :
    (formatted compact p).toList = (if compact then p.compact else p.indented 0) ++ ['\n'] := by
  cases compact <;> simp [formatted, lines, Program.text, Program.layoutText]

/-- **Formatted text is read as the program it was made from.** -/
theorem read_formatted {p : Program} {text : String} (h : Program.read text = .ok p)
    (compact : Bool) : Program.read (formatted compact p) = .ok p := by
  obtain ⟨depth, finite⟩ := Program.bounds_of_read h
  have hprinted : Program.Derives (if compact then p.compact else p.indented 0) p := by
    cases compact with
    | true => exact Program.derives_compact p finite
    | false => exact Program.derives_indented 0 p finite
  have hline := hprinted.append_blanks blanks_newline
  rw [← formatted_toList] at hline
  rw [Program.read_text_of_derives hline]
  exact if_pos depth

variable {m : Type → Type} [Monad m] [LawfulMonad m] {files : FileReader m} {file text : String}
  {p : Program}

theorem readProgramFile_eq (hfile : files file = pure (.text text))
    (h : Program.read text = .ok p) :
    readProgramFile files file = pure p := by
  unfold readProgramFile
  simp only [hfile, liftM_pure, pure_bind, h]

theorem carryOut_format (hfile : files file = pure (.text text)) (h : Program.read text = .ok p)
    (settings : Settings) (compact : Bool) :
    carryOut files settings (.format file compact) = pure (formatted compact p) := by
  unfold carryOut
  simp only [readProgramFile_eq hfile h, pure_bind]
  rfl

theorem carryOut_check (hfile : files file = pure (.text text)) (h : Program.read text = .ok p)
    (settings : Settings) (asJson : Bool) :
    carryOut files settings (.check file asJson) =
      pure (lines (if asJson then [p.toJson.prettyText] else [p.text, summary p])) := by
  unfold carryOut
  simp only [readProgramFile_eq hfile h, pure_bind]

end CommandLine

open CommandLine in
/-- **Printing and reading undo each other.** A tree whose forms nest in at most 256 levels and
whose amounts are finite is read again from each of its printed texts, and every tree that is read
is of this kind. So what is printed for the file of a program is read as the program in the file,
is printed for a file with the printed text again, and has the same report and fingerprint. -/
theorem print_read_round_trip {m : Type → Type} [Monad m] [LawfulMonad m] :
    (∀ p : Program, p.depth ≤ 256 → (∀ x ∈ p.amounts, x.isFinite) →
        Program.read p.text = .ok p ∧ Program.read p.layoutText = .ok p) ∧
      (∀ c : Condition, c.depth ≤ 256 → (∀ x ∈ c.amounts, x.isFinite) →
        Condition.read c.text = .ok c) ∧
      (∀ text p, Program.read text = .ok p → p.depth ≤ 256 ∧ ∀ x ∈ p.amounts, x.isFinite) ∧
      (∀ text c, Condition.read text = .ok c → c.depth ≤ 256 ∧ ∀ x ∈ c.amounts, x.isFinite) ∧
      ∀ (files : FileReader m) (settings : Settings) (file text : String) (p : Program)
        (compact : Bool), files file = pure (.text text) → Program.read text = .ok p →
        ∃ output, carryOut files settings (.format file compact) = pure output ∧
          Program.read output = .ok p ∧
          (Program.read output).map Program.fingerprint =
            (Program.read text).map Program.fingerprint ∧
          ∀ (again : FileReader m) (path : String), again path = pure (.text output) →
            carryOut again settings (.format path compact) = pure output ∧
              ∀ asJson, carryOut again settings (.check path asJson) =
                carryOut files settings (.check file asJson) := by
  refine ⟨fun p depth finite =>
      ⟨Program.read_text_eq depth finite, Program.read_layoutText_eq depth finite⟩,
    fun c depth finite => Condition.read_text_eq depth finite,
    fun text p h => Program.bounds_of_read h, fun text c h => Condition.bounds_of_read h, ?_⟩
  intro files settings file text p compact hfile h
  have hread := read_formatted h compact
  refine ⟨formatted compact p, carryOut_format hfile h settings compact, hread,
    by rw [hread, h], ?_⟩
  intro again path hagain
  refine ⟨carryOut_format hagain hread settings compact, ?_⟩
  intro asJson
  rw [carryOut_check hagain hread, carryOut_check hfile h]

open CommandLine in
/-- A branch with an empty part and with amounts of either sign is printed, is read as the same
branch, and is formatted as a line of its own. -/
theorem print_read_round_trip_branch :
    let p : Program := .branch (.not (.or [.sensor .wall, .energyAtLeast 0.1])) (.seq [])
      (.loop (.energyAtLeast (-2.5e-7)) (.act .move))
    p.text = "(if (not (or (wall) (energy-at-least 0.1))) (seq) " ++
        "(while (energy-at-least -0.00000025) (move)))" ∧
      Program.read p.text = .ok p ∧ Program.read p.layoutText = .ok p ∧
      ∃ output, carryOut (m := Id) (fun _ => pure (.text p.layoutText)) {}
          (.format "patrol.rr" true) = pure output ∧ Program.read output = .ok p := by
  intro p
  obtain ⟨hcompact, hindented⟩ :=
    (print_read_round_trip (m := Id)).1 p (by decide) (by decide +kernel)
  obtain ⟨output, hformat, hagain, -⟩ := (print_read_round_trip (m := Id)).2.2.2.2
    (fun _ => pure (.text p.layoutText)) {} "patrol.rr" _ p true rfl hindented
  exact ⟨by decide +kernel, hcompact, hindented, output, hformat, hagain⟩

end RobotControl
