import RobotControl.Proofs.CommandLine.Formatting
import RobotControl.Proofs.Saved.Programs
import RobotControl.Saved.Runner

/-!
Saved runners.

Every saved runner is valid JSON. Whether it can be loaded depends on how deep its program nests:
the reader's limit counts levels of the document, of which a form of the source takes up to two, so
programs that the source reader accepts need not fit.

* `Runner.ofDocument?_text`: loading a saved runner starts from what its writing keeps.
* `Runner.ofDocument?_some`: when the saved text of a runner with a program can be loaded.
* `Runner.same_of_ofDocument?`: a loaded runner has the cursor and the leaves that were saved.
* `saved_documents_read_back`: runners, programs and conditions together.
-/

namespace RobotControl

open Json

/-! ### Documents of programs and conditions -/

/-- A text that is read as a saved condition is a document of it, however it is laid out. -/
theorem Condition.ofDocument?_of_read? {c : Condition} (h : ∀ x ∈ c.amounts, ReadsBack x)
    {text : String} (hread : read? text = some c.toJson.restored) :
    Condition.ofDocument? text = if c.toJson.depth ≤ Json.maxDepth then some c else none := by
  rw [ofDocument?, hread, (c.intact_toJson h).restored, Option.bind_some, ofJson?_toJson h]

/-- A text that is read as a saved program is a document of it, however it is laid out. -/
theorem Program.ofDocument?_of_read? {p : Program} (h : ∀ x ∈ p.amounts, ReadsBack x)
    {text : String} (hread : read? text = some p.toJson.restored) :
    Program.ofDocument? text = if p.toJson.depth ≤ Json.maxDepth then some p else none := by
  rw [ofDocument?, hread, (p.intact_toJson h).restored, Option.bind_some, ofJson?_toJson h]

/-! ### Documents of runners -/

namespace Runner

theorem writable_toJson : ∀ r : Runner, r.toJson.Writable
  | ⟨none, cursor⟩ =>
      ⟨by decide, trivial, by decide, .inl (isLiteral_toDigits cursor), trivial⟩
  | ⟨some p, cursor⟩ =>
      ⟨by decide, p.writable_toJson, by decide, .inl (isLiteral_toDigits cursor), trivial⟩

/-- The text of a runner is read as the runner's document, as far as writing keeps it. -/
theorem ofDocument?_text (r : Runner) : ofDocument? r.toJson.text = ofJson? r.toJson.restored := by
  rw [ofDocument?, read?_text r.writable_toJson, Option.bind_some]

theorem restored_none (cursor : Nat) :
    (toJson ⟨none, cursor⟩).restored = .object [("program", .null), ("cursor", ofNat cursor)] := by
  show Json.object [("program", .null), ("cursor", (ofNat cursor).restored)] = _
  rw [restored_ofNat]

theorem restored_some (p : Program) (cursor : Nat) :
    (toJson ⟨some p, cursor⟩).restored =
      .object [("program", p.toJson.restored), ("cursor", ofNat cursor)] := by
  show Json.object [("program", p.toJson.restored), ("cursor", (ofNat cursor).restored)] = _
  rw [restored_ofNat]

theorem ofJson?_none (cursor : Nat) :
    ofJson? (.object [("program", .null), ("cursor", ofNat cursor)]) =
      (ofNat cursor).natural?.map fun cursor => ⟨none, cursor⟩ := by
  show ((ofNat cursor).natural? >>= fun cursor => some (Runner.mk none cursor)) = _
  cases (ofNat cursor).natural? <;> rfl

theorem ofJson?_some {program : Json} (h : program ≠ .null) (cursor : Nat) :
    ofJson? (.object [("program", program), ("cursor", ofNat cursor)]) =
      (do
        let cursor ← (ofNat cursor).natural?
        return ⟨some (← Program.ofJson? (Json.maxDepth - 1) program), cursor⟩) := by
  cases program with
  | null => exact absurd rfl h
  | _ => rfl

/-- A saved program is an object. -/
theorem restored_ne_null (p : Program) : p.toJson.restored ≠ .null := by
  cases p <;> exact Json.noConfusion

/-- **A saved runner without a program can be loaded.** -/
theorem ofDocument?_none {cursor : Nat} (hcursor : cursor < UInt64.size) :
    ofDocument? (toJson ⟨none, cursor⟩).text = some ⟨none, cursor⟩ := by
  rw [ofDocument?_text, restored_none, ofJson?_none, natural?_ofNat, if_pos hcursor]
  rfl

/-- **A saved runner with a program can be loaded if its document nests within the limit**, the
object of the runner included. -/
theorem ofDocument?_some {p : Program} (h : ∀ x ∈ p.amounts, ReadsBack x) {cursor : Nat}
    (hcursor : cursor < UInt64.size) :
    ofDocument? (toJson ⟨some p, cursor⟩).text =
      if p.toJson.depth < Json.maxDepth then some ⟨some p, cursor⟩ else none := by
  rw [ofDocument?_text, restored_some, ofJson?_some (restored_ne_null p), natural?_ofNat,
    if_pos hcursor, (p.intact_toJson h).restored]
  show (Program.ofJson? (Json.maxDepth - 1) p.toJson >>= fun p => some (Runner.mk (some p) cursor)) =
    _
  rw [Program.ofJson?_toJson h]
  by_cases hdepth : p.toJson.depth < Json.maxDepth
  · rw [if_pos hdepth, if_pos (Nat.le_sub_one_of_lt hdepth)]
    rfl
  · have hdeep : ¬ p.toJson.depth ≤ Json.maxDepth - 1 := fun hle =>
      hdepth (Nat.lt_of_le_pred (by decide) hle)
    rw [if_neg hdepth, if_neg hdeep]
    rfl

/-- **A loaded runner has the cursor and the leaves that were saved.** -/
theorem same_of_ofDocument? {r r' : Runner} (h : ofDocument? r.toJson.text = some r') :
    r'.cursor = r.cursor ∧ r'.program.map Program.leaves = r.program.map Program.leaves := by
  obtain ⟨_ | p, cursor⟩ := r
  · rw [ofDocument?_text, restored_none, ofJson?_none, natural?_ofNat] at h
    split at h
    · obtain rfl := Option.some.inj h
      exact ⟨rfl, rfl⟩
    · cases h
  · rw [ofDocument?_text, restored_some, ofJson?_some (restored_ne_null p), natural?_ofNat] at h
    split at h
    · obtain ⟨n, hn, h⟩ := Option.bind_eq_some_iff.mp h
      obtain rfl := Option.some.inj hn
      obtain ⟨q, hq, h⟩ := Option.bind_eq_some_iff.mp h
      obtain rfl := Option.some.inj h
      rw [Program.ofJson?] at hq
      split at hq
      · exact ⟨rfl, congrArg some (p.leaves_of_restored hq)⟩
      · cases hq
    · cases h

end Runner

/-! ### All documents together -/

/-- **A saved document is read back, as what was saved, exactly if it nests within the limit of its
reader.** A runner takes one level for itself. A form of the source takes one level or two, so half
the limit always fits. -/
theorem saved_documents_read_back {p : Program} {c : Condition} {cursor : Nat}
    (hp : ∀ x ∈ p.amounts, ReadsBack x) (hc : ∀ x ∈ c.amounts, ReadsBack x)
    (hcursor : cursor < UInt64.size) :
    Runner.ofDocument? (Runner.toJson ⟨none, cursor⟩).text = some ⟨none, cursor⟩ ∧
      Runner.ofDocument? (Runner.toJson ⟨some p, cursor⟩).text =
        (if p.toJson.depth < Json.maxDepth then some ⟨some p, cursor⟩ else none) ∧
      (∀ text ∈ [p.toJson.text, p.toJson.prettyText],
        Program.ofDocument? text = if p.toJson.depth ≤ Json.maxDepth then some p else none) ∧
      (∀ text ∈ [c.toJson.text, c.toJson.prettyText],
        Condition.ofDocument? text = if c.toJson.depth ≤ Json.maxDepth then some c else none) ∧
      (p.depth ≤ p.toJson.depth ∧ p.toJson.depth ≤ 2 * p.depth) ∧
      (c.depth ≤ c.toJson.depth ∧ c.toJson.depth ≤ 2 * c.depth) :=
  ⟨Runner.ofDocument?_none hcursor, Runner.ofDocument?_some hp hcursor,
    List.forall_mem_cons.mpr ⟨Program.ofDocument?_of_read? hp (read?_text p.writable_toJson),
      List.forall_mem_singleton.mpr
        (Program.ofDocument?_of_read? hp (read?_prettyText p.writable_toJson))⟩,
    List.forall_mem_cons.mpr ⟨Condition.ofDocument?_of_read? hc (read?_text c.writable_toJson),
      List.forall_mem_singleton.mpr
        (Condition.ofDocument?_of_read? hc (read?_prettyText c.writable_toJson))⟩,
    p.depth_toJson, c.depth_toJson⟩

/-- Moves and shoots for as long as there is energy. -/
def patrol : Program :=
  .loop (.energyAtLeast 500.0) (.seq [.act .move, .act .shoot])

theorem readsBack_fiveHundred : ReadsBack 500.0 := by
  unfold ReadsBack
  decide +kernel

theorem saved_documents_read_back_patrol :
    Runner.ofDocument? (Runner.toJson ⟨some patrol, 2⟩).text = some ⟨some patrol, 2⟩ ∧
      Program.ofDocument? patrol.toJson.prettyText = some patrol := by
  have hamounts : ∀ x ∈ patrol.amounts, ReadsBack x :=
    List.forall_mem_singleton.mpr readsBack_fiveHundred
  have hcondition : ∀ x ∈ (Condition.constant true).amounts, ReadsBack x := fun x hx =>
    absurd hx List.not_mem_nil
  obtain ⟨-, hrunner, hprogram, -⟩ :=
    @saved_documents_read_back patrol (.constant true) 2 hamounts hcondition (by decide)
  exact ⟨hrunner, hprogram _ (List.mem_cons_of_mem _ List.mem_cons_self)⟩

/-! ### Programs that are accepted and do not fit -/

/-- A move inside as many sequences of one part. -/
def nestedSequences : Nat → Program
  | 0 => .act .move
  | n + 1 => .seq [nestedSequences n]

theorem amounts_nestedSequences (n : Nat) : (nestedSequences n).amounts = [] := by
  induction n with
  | zero => rfl
  | succ n ih => rw [nestedSequences, Program.amounts, Program.amountsOf, ih, Program.amountsOf,
      List.append_nil]

theorem depth_nestedSequences (n : Nat) : (nestedSequences n).depth = n + 1 := by
  induction n with
  | zero => rfl
  | succ n ih => rw [nestedSequences, Program.depth, Program.depthOf, ih, Program.depthOf,
      Nat.max_zero]

/-- Every sequence takes two levels of the document. -/
theorem depth_toJson_nestedSequences (n : Nat) :
    (nestedSequences n).toJson.depth = 2 * n + 1 := by
  induction n with
  | zero => rfl
  | succ n ih =>
      simp only [nestedSequences, Program.toJson, Program.toJsonAll, Json.ofKind, Json.depth,
        Json.depthOfMembers, Json.depthOfItems, ih]
      omega

/-- **A program that the source reader accepts can be too deep for its own document.** Sixty-four
forms, a quarter of what the source may nest, are enough. -/
theorem saved_nestedSequences_not_read_back :
    Program.read (nestedSequences 63).text = .ok (nestedSequences 63) ∧
      Runner.ofDocument? (Runner.ofProgram (nestedSequences 63)).toJson.text = none := by
  have hamounts {P : Float → Prop} : ∀ x ∈ (nestedSequences 63).amounts, P x := by
    rw [amounts_nestedSequences]
    exact fun x hx => absurd hx List.not_mem_nil
  have hdepth : (nestedSequences 63).depth ≤ maxDepth := by
    rw [depth_nestedSequences]
    decide
  have hdeep : ¬ (nestedSequences 63).toJson.depth < Json.maxDepth := by
    rw [depth_toJson_nestedSequences]
    decide
  refine ⟨Program.read_text_eq hdepth hamounts, ?_⟩
  rw [Runner.ofProgram, Runner.ofDocument?_some hamounts (by decide), if_neg hdeep]

end RobotControl
