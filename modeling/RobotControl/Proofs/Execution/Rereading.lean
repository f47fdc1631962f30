import RobotControl.Proofs.Execution.Deciding
import RobotControl.Proofs.Execution.History

/-!
How much is read to find the next step.

Looking for the next step reads conditions from left to right, each test at most once, as long as no
loop begins again. When the body of a loop is over, the loop begins again and may read what has been
read already; but it is in the way only of the loops around it, so that this happens once for each
loop on one path.

* `InPasses`: reading again and again, each time from left to right.
* `Condition.consulted`, `Program.consulted`: the tests that are made, with the places where they
  are written.
* `Program.next_answered`: the readings in the log of a recorded world answer them one for one.
* `Program.consulted_sublist`: from the beginning of a program, each is made at most once.
* `Program.consulted_inPasses`: from anywhere, one pass more is made than loops nest.
* `Program.readings_bounded`: how many readings this comes to.
-/

namespace RobotControl

open Recorded (Answered)

/-! ### Passes -/

/-- The list is read off another one in at most so many passes, each from left to right and with
omissions. -/
inductive InPasses {α : Type} (written : List α) : Nat → List α → Prop where
  | none (passes : Nat) : InPasses written passes []
  | cons {passes : Nat} {xs rest : List α} : List.Sublist xs written →
      InPasses written passes rest → InPasses written (passes + 1) (xs ++ rest)

namespace InPasses

variable {α : Type} {written wider later xs ys : List α} {passes more : Nat}

theorem once (h : List.Sublist xs written) : InPasses written 1 xs := by
  have pass := cons h (none 0)
  rwa [List.append_nil] at pass

theorem mono (h : InPasses written passes xs) (le : passes ≤ more) :
    InPasses written more xs := by
  induction h generalizing more with
  | none => exact none more
  | cons pass _ ih =>
      obtain ⟨more, rfl⟩ : ∃ m, more = m + 1 := ⟨more - 1, by omega⟩
      exact cons pass (ih (by omega))

theorem widen (h : InPasses written passes xs) (wide : List.Sublist written wider) :
    InPasses wider passes xs := by
  induction h with
  | none => exact none _
  | cons pass _ ih => exact cons (pass.trans wide) ih

/-- Reading once more takes one more pass. -/
theorem again (h : InPasses written passes xs) (pass : List.Sublist ys written) :
    InPasses written (passes + 1) (xs ++ ys) := by
  induction h with
  | none => exact (once pass).mono (by omega)
  | cons first _ ih =>
      rw [List.append_assoc]
      exact cons first ih

/-- What is written later can be read in the last of the passes. -/
theorem andThen (h : InPasses written passes xs) (some : 0 < passes)
    (pass : List.Sublist ys later) : InPasses (written ++ later) passes (xs ++ ys) := by
  induction h with
  | none =>
      exact (once (pass.trans (List.sublist_append_right _ _))).mono some
  | @cons passes first rest hfirst hrest ih =>
      rcases Nat.eq_zero_or_pos passes with rfl | pos
      · cases hrest
        rw [List.append_nil]
        exact once (hfirst.append pass)
      · rw [List.append_assoc]
        exact cons (hfirst.trans (List.sublist_append_left _ _)) (ih pos)

theorem length_le (h : InPasses written passes xs) : xs.length ≤ written.length * passes := by
  induction h with
  | none => exact Nat.zero_le _
  | cons pass _ ih =>
      rw [List.length_append, Nat.mul_succ, Nat.add_comm]
      exact Nat.add_le_add ih pass.length_le

end InPasses

/-! ### Tests and their places -/

/-- A test that was made, with the place where it is written. -/
structure Consultation where
  test : Test
  place : Nat

/-- What is written at the place. -/
def Consultation.written (c : Consultation) : Question × Nat :=
  (c.test.question, c.place)

section Conditions

variable {σ : Type} [World σ]

mutual

/-- The tests that evaluating a condition makes, in order. Its first test is written at the place
`first`. -/
def Condition.consulted : Condition → (first : Nat) → σ → List Consultation
  | .constant _, _, _ => []
  | .sensor which, first, s => [⟨⟨.sensor which, (World.sense which s).1⟩, first⟩]
  | .energyAtLeast amount, first, s =>
    [⟨⟨.energyAtLeast amount, (Condition.readAmount amount s).1⟩, first⟩]
  | .and operands, first, s => Condition.consultedAll operands first s
  | .or operands, first, s => Condition.consultedAny operands first s
  | .not operand, first, s => operand.consulted first s

def Condition.consultedAll : List Condition → (first : Nat) → σ → List Consultation
  | [], _, _ => []
  | c :: cs, first, s => c.consulted first s ++ match c.evaluate s with
    | (true, s) => Condition.consultedAll cs (first + c.questions.length) s
    | (false, _) => []

def Condition.consultedAny : List Condition → (first : Nat) → σ → List Consultation
  | [], _, _ => []
  | c :: cs, first, s => c.consulted first s ++ match c.evaluate s with
    | (true, _) => []
    | (false, s) => Condition.consultedAny cs (first + c.questions.length) s

end

mutual

/-- The places belong to the tests that are made. -/
theorem Condition.map_test_consulted : ∀ (c : Condition) (first : Nat) (s : σ),
    (c.consulted first s).map Consultation.test = c.asked s
  | .constant _, _, _ => rfl
  | .sensor _, _, _ => rfl
  | .energyAtLeast _, _, _ => rfl
  | .and operands, first, s => Condition.map_test_consultedAll operands first s
  | .or operands, first, s => Condition.map_test_consultedAny operands first s
  | .not operand, first, s => operand.map_test_consulted first s

theorem Condition.map_test_consultedAll : ∀ (cs : List Condition) (first : Nat) (s : σ),
    (Condition.consultedAll cs first s).map Consultation.test = Condition.askedAll cs s
  | [], _, _ => rfl
  | c :: cs, first, s => by
      rw [consultedAll, askedAll, List.map_append, c.map_test_consulted]
      rcases c.evaluate s with ⟨_ | _, t⟩
      · rfl
      · exact congrArg (c.asked s ++ ·) (Condition.map_test_consultedAll cs _ t)

theorem Condition.map_test_consultedAny : ∀ (cs : List Condition) (first : Nat) (s : σ),
    (Condition.consultedAny cs first s).map Consultation.test = Condition.askedAny cs s
  | [], _, _ => rfl
  | c :: cs, first, s => by
      rw [consultedAny, askedAny, List.map_append, c.map_test_consulted]
      rcases c.evaluate s with ⟨_ | _, t⟩
      · exact congrArg (c.asked s ++ ·) (Condition.map_test_consultedAny cs _ t)
      · rfl

end

mutual

/-- **Evaluating a condition reads each of its tests at most once, from left to right.** -/
theorem Condition.consulted_sublist : ∀ (c : Condition) (first : Nat) (s : σ),
    List.Sublist ((c.consulted first s).map Consultation.written) (c.questions.zipIdx first)
  | .constant _, _, _ => List.Sublist.slnil
  | .sensor _, _, _ => List.Sublist.refl _
  | .energyAtLeast _, _, _ => List.Sublist.refl _
  | .and operands, first, s => Condition.consultedAll_sublist operands first s
  | .or operands, first, s => Condition.consultedAny_sublist operands first s
  | .not operand, first, s => operand.consulted_sublist first s

theorem Condition.consultedAll_sublist : ∀ (cs : List Condition) (first : Nat) (s : σ),
    List.Sublist ((Condition.consultedAll cs first s).map Consultation.written)
      ((Condition.questionsOf cs).zipIdx first)
  | [], _, _ => List.Sublist.slnil
  | c :: cs, first, s => by
      rw [consultedAll, questionsOf, List.map_append, List.zipIdx_append]
      apply (c.consulted_sublist first s).append
      rcases c.evaluate s with ⟨_ | _, t⟩
      · exact List.nil_sublist _
      · exact Condition.consultedAll_sublist cs _ t

theorem Condition.consultedAny_sublist : ∀ (cs : List Condition) (first : Nat) (s : σ),
    List.Sublist ((Condition.consultedAny cs first s).map Consultation.written)
      ((Condition.questionsOf cs).zipIdx first)
  | [], _, _ => List.Sublist.slnil
  | c :: cs, first, s => by
      rw [consultedAny, questionsOf, List.map_append, List.zipIdx_append]
      apply (c.consulted_sublist first s).append
      rcases c.evaluate s with ⟨_ | _, t⟩
      · exact Condition.consultedAny_sublist cs _ t
      · exact List.nil_sublist _

end

end Conditions

/-! ### Looking for the next step -/

mutual

/-- The most loops that lie around each other. -/
def Program.loopDepth : Program → Nat
  | .act _ => 0
  | .seq body => Program.loopDepthOf body
  | .branch _ thenPart elsePart => max thenPart.loopDepth elsePart.loopDepth
  | .loop _ body => 1 + body.loopDepth

def Program.loopDepthOf : List Program → Nat
  | [] => 0
  | p :: ps => max p.loopDepth (Program.loopDepthOf ps)

end

section Programs

variable {σ : Type} [World σ]

mutual

/-- The tests that looking for the step after `last` makes, in order. The first test of the program
is written at the place `first`. -/
def Program.consulted : Program → (first last : Nat) → σ → List Consultation
  | .act _, _, _, _ => []
  | .seq body, first, last, s => Program.consultedIn body first last s
  | .branch test thenPart elsePart, first, last, s =>
    let second := first + test.questions.length
    let third := second + thenPart.questions.length
    if last = 0 then
      test.consulted first s ++ match test.evaluate s with
        | (true, s) => thenPart.consulted second 0 s
        | (false, s) => elsePart.consulted third 0 s
    else if last ≤ thenPart.stepCount then thenPart.consulted second last s
    else elsePart.consulted third (last - thenPart.stepCount) s
  | .loop test body, first, last, s =>
    let second := first + test.questions.length
    let again (s : σ) := test.consulted first s ++ match test.evaluate s with
      | (true, s) => body.consulted second 0 s
      | (false, _) => []
    if last = 0 then again s
    else body.consulted second last s ++ match body.next last s with
      | (some _, _) => []
      | (none, s) => again s

def Program.consultedIn : List Program → (first last : Nat) → σ → List Consultation
  | [], _, _, _ => []
  | p :: ps, first, last, s =>
    let later (s : σ) :=
      Program.consultedIn ps (first + p.questions.length) (last - p.stepCount) s
    if last ≤ p.stepCount then
      p.consulted first last s ++ match p.next last s with
        | (some _, _) => []
        | (none, s) => later s
    else later s

end

/-- From its beginning, a loop makes its test and then those of its body. -/
theorem Program.consulted_loop_zero (test : Condition) (body : Program) (first : Nat) (s : σ) :
    (Program.loop test body).consulted first 0 s = test.consulted first s ++
      match test.evaluate s with
      | (true, s) => body.consulted (first + test.questions.length) 0 s
      | (false, _) => [] := by
  rw [consulted, if_pos rfl]

/-- A loop in the middle of a pass makes the tests of its body, and if nothing was found it begins
again. -/
theorem Program.consulted_loop_of_pos {test : Condition} {body : Program} {last : Nat}
    (h : last ≠ 0) (first : Nat) (s : σ) :
    (Program.loop test body).consulted first last s =
      body.consulted (first + test.questions.length) last s ++
        match body.next last s with
        | (some _, _) => []
        | (none, s) => (Program.loop test body).consulted first 0 s := by
  rw [consulted, if_neg h]
  simp only [consulted_loop_zero]

theorem Program.consultedIn_cons_of_le {p : Program} {last : Nat} (h : last ≤ p.stepCount)
    (ps : List Program) (first : Nat) (s : σ) :
    Program.consultedIn (p :: ps) first last s = p.consulted first last s ++
      match p.next last s with
      | (some _, _) => []
      | (none, s) => Program.consultedIn ps (first + p.questions.length) 0 s := by
  rw [consultedIn, if_pos h, Nat.sub_eq_zero_of_le h]

theorem Program.consultedIn_cons_of_lt {p : Program} {last : Nat} (h : p.stepCount < last)
    (ps : List Program) (first : Nat) (s : σ) :
    Program.consultedIn (p :: ps) first last s =
      Program.consultedIn ps (first + p.questions.length) (last - p.stepCount) s := by
  rw [consultedIn, if_neg (Nat.not_le_of_lt h)]

/-! ### The readings that answer -/

mutual

/-- **The readings in the log answer the tests that looking for the next step makes**, one for
one. -/
theorem Program.next_answered : ∀ (p : Program) (first last : Nat) (r : Recorded σ),
    Answered ((p.consulted first last r).map Consultation.test) r (p.next last r).2
  | .act _, _, _, r => .refl r
  | .seq body, first, last, r => Program.nextIn_answered body first last r
  | .branch test thenPart elsePart, first, last, r => by
      rw [Program.consulted, Program.next]
      by_cases h0 : last = 0
      · have test_answered := test.evaluate_answered r
        rw [if_pos h0, if_pos h0, List.map_append, test.map_test_consulted]
        rcases ht : test.evaluate r with ⟨_ | _, t⟩
        · rw [ht] at test_answered
          exact test_answered.trans (elsePart.next_answered _ 0 t)
        · rw [ht] at test_answered
          exact test_answered.trans (thenPart.next_answered _ 0 t)
      · rw [if_neg h0, if_neg h0]
        by_cases hl : last ≤ thenPart.stepCount
        · rw [if_pos hl, if_pos hl]
          exact thenPart.next_answered _ last r
        · rw [if_neg hl, if_neg hl]
          exact elsePart.next_answered _ (last - thenPart.stepCount) r
  | .loop test body, first, last, r => by
      have begun (r : Recorded σ) :
          Answered (((Program.loop test body).consulted first 0 r).map Consultation.test) r
            ((Program.loop test body).next 0 r).2 := by
        have test_answered := test.evaluate_answered r
        rw [Program.consulted_loop_zero, Program.next, if_pos rfl, List.map_append,
          test.map_test_consulted]
        rcases ht : test.evaluate r with ⟨_ | _, t⟩
        · rw [ht] at test_answered
          exact test_answered.trans (.refl t)
        · rw [ht] at test_answered
          exact test_answered.trans (body.next_answered _ 0 t)
      rcases Nat.eq_zero_or_pos last with rfl | pos
      · exact begun r
      · have body_answered := body.next_answered (first + test.questions.length) last r
        rw [Program.consulted_loop_of_pos (Nat.ne_of_gt pos), List.map_append]
        rcases hb : body.next last r with ⟨_ | step, t⟩
        · rw [hb] at body_answered
          rw [Program.next_loop_of_none (Nat.ne_of_gt pos) hb]
          exact body_answered.trans (begun t)
        · rw [hb] at body_answered
          rw [Program.next_loop_of_some (Nat.ne_of_gt pos) hb]
          exact body_answered.trans (.refl t)

theorem Program.nextIn_answered : ∀ (ps : List Program) (first last : Nat) (r : Recorded σ),
    Answered ((Program.consultedIn ps first last r).map Consultation.test) r
      (Program.nextIn ps last r).2
  | [], _, _, r => .refl r
  | p :: ps, first, last, r => by
      rcases Nat.lt_or_ge p.stepCount last with hl | hl
      · rw [Program.consultedIn_cons_of_lt hl, Program.nextIn_cons_of_lt hl]
        exact Program.nextIn_answered ps _ (last - p.stepCount) r
      · have first_answered := p.next_answered first last r
        rw [Program.consultedIn_cons_of_le hl, List.map_append]
        rcases hp : p.next last r with ⟨_ | step, t⟩
        · rw [hp] at first_answered
          rw [Program.nextIn_cons_of_none hl hp]
          exact first_answered.trans (Program.nextIn_answered ps _ 0 t)
        · rw [hp] at first_answered
          rw [Program.nextIn_cons_of_some hl hp]
          exact first_answered.trans (.refl t)

end

/-! ### From the beginning -/

mutual

/-- **From the beginning of a program each of its tests is made at most once**, from left to
right. -/
theorem Program.consulted_sublist : ∀ (p : Program) (first : Nat) (s : σ),
    List.Sublist ((p.consulted first 0 s).map Consultation.written) (p.questions.zipIdx first)
  | .act _, _, _ => List.Sublist.slnil
  | .seq body, first, s => Program.consultedIn_sublist body first s
  | .branch test thenPart elsePart, first, s => by
      rw [consulted, if_pos rfl, questions, List.append_assoc, List.map_append, List.zipIdx_append,
        List.zipIdx_append]
      apply (test.consulted_sublist first s).append
      rcases test.evaluate s with ⟨_ | _, t⟩
      · exact (elsePart.consulted_sublist _ t).trans (List.sublist_append_right _ _)
      · exact (thenPart.consulted_sublist _ t).trans (List.sublist_append_left _ _)
  | .loop test body, first, s => by
      rw [consulted_loop_zero, questions, List.map_append, List.zipIdx_append]
      apply (test.consulted_sublist first s).append
      rcases test.evaluate s with ⟨_ | _, t⟩
      · exact List.nil_sublist _
      · exact body.consulted_sublist _ t

theorem Program.consultedIn_sublist : ∀ (ps : List Program) (first : Nat) (s : σ),
    List.Sublist ((Program.consultedIn ps first 0 s).map Consultation.written)
      ((Program.questionsOf ps).zipIdx first)
  | [], _, _ => List.Sublist.slnil
  | p :: ps, first, s => by
      rw [consultedIn_cons_of_le (Nat.zero_le _), questionsOf, List.map_append, List.zipIdx_append]
      apply (p.consulted_sublist first s).append
      rcases p.next 0 s with ⟨_ | step, t⟩
      · exact Program.consultedIn_sublist ps _ t
      · exact List.nil_sublist _

end

/-! ### From anywhere -/

mutual

/-- **From anywhere, looking for the next step makes at most one pass more over the tests of a
program than its loops nest.** -/
theorem Program.consulted_inPasses : ∀ (p : Program) (first last : Nat) (s : σ),
    InPasses (p.questions.zipIdx first) (1 + p.loopDepth)
      ((p.consulted first last s).map Consultation.written)
  | .act _, _, _, _ => .none _
  | .seq body, first, last, s => Program.consultedIn_inPasses body first last s
  | .branch test thenPart elsePart, first, last, s => by
      have hthen : 1 + thenPart.loopDepth ≤ 1 + (Program.branch test thenPart elsePart).loopDepth :=
        Nat.add_le_add_left (Nat.le_max_left _ _) 1
      have helse : 1 + elsePart.loopDepth ≤ 1 + (Program.branch test thenPart elsePart).loopDepth :=
        Nat.add_le_add_left (Nat.le_max_right _ _) 1
      rcases Nat.eq_zero_or_pos last with rfl | pos
      · exact (InPasses.once (Program.consulted_sublist _ first s)).mono (Nat.le_add_right 1 _)
      · rw [consulted, if_neg (Nat.ne_of_gt pos), questions, List.append_assoc, List.zipIdx_append,
          List.zipIdx_append]
        by_cases hl : last ≤ thenPart.stepCount
        · rw [if_pos hl]
          apply ((thenPart.consulted_inPasses _ last s).mono hthen).widen
          exact (List.sublist_append_left _ _).trans (List.sublist_append_right _ _)
        · rw [if_neg hl]
          apply ((elsePart.consulted_inPasses _ (last - thenPart.stepCount) s).mono helse).widen
          exact (List.sublist_append_right _ _).trans (List.sublist_append_right _ _)
  | .loop test body, first, last, s => by
      rcases Nat.eq_zero_or_pos last with rfl | pos
      · exact (InPasses.once (Program.consulted_sublist _ first s)).mono (Nat.le_add_right 1 _)
      · have pass : InPasses ((Program.loop test body).questions.zipIdx first) (1 + body.loopDepth)
            ((body.consulted (first + test.questions.length) last s).map Consultation.written) := by
          rw [questions, List.zipIdx_append]
          exact (body.consulted_inPasses _ last s).widen (List.sublist_append_right _ _)
        rw [consulted_loop_of_pos (Nat.ne_of_gt pos), loopDepth, List.map_append, Nat.add_comm 1]
        -- The body may have been read already, so that beginning again takes a pass of its own.
        rcases body.next last s with ⟨_ | step, t⟩
        · exact pass.again (Program.consulted_sublist _ first t)
        · exact pass.again (List.nil_sublist _)

theorem Program.consultedIn_inPasses : ∀ (ps : List Program) (first last : Nat) (s : σ),
    InPasses ((Program.questionsOf ps).zipIdx first) (1 + Program.loopDepthOf ps)
      ((Program.consultedIn ps first last s).map Consultation.written)
  | [], _, _, _ => .none _
  | p :: ps, first, last, s => by
      rw [questionsOf, List.zipIdx_append, loopDepthOf]
      rcases Nat.lt_or_ge p.stepCount last with hl | hl
      · rw [consultedIn_cons_of_lt hl]
        apply ((Program.consultedIn_inPasses ps _ (last - p.stepCount) s).mono _).widen
        · exact List.sublist_append_right _ _
        · exact Nat.add_le_add_left (Nat.le_max_right _ _) 1
      · rw [consultedIn_cons_of_le hl, List.map_append]
        have pass := (p.consulted_inPasses first last s).mono
          (Nat.add_le_add_left (Nat.le_max_left _ (Program.loopDepthOf ps)) 1)
        -- The programs that follow are read from their beginning, within the last of the passes.
        rcases p.next last s with ⟨_ | step, t⟩
        · exact pass.andThen (Nat.zero_lt_of_lt (Nat.lt_add_right _ Nat.one_pos))
            (Program.consultedIn_sublist ps _ t)
        · exact pass.andThen (Nat.zero_lt_of_lt (Nat.lt_add_right _ Nat.one_pos))
            (List.nil_sublist _)

end

end Programs

/-- Both loops begin again, and the test of the inner one is made a second time. -/
example : let patrol : Program := .loop (.sensor .wall) (.loop (.sensor .atItem) (.act .move))
    let world : ScriptedWorld := { wall := ⟨[true]⟩, atItem := ⟨[false, true]⟩ }
    (patrol.consulted 0 1 world).map Consultation.place = [1, 0, 1] := rfl

/-! ### Readings -/

section Readings

variable {σ : Type}

/-- The number of readings in the log. -/
def Recorded.readings (r : Recorded σ) : Nat :=
  r.events.countP Event.isReading

/-- Every test took one reading. -/
theorem Recorded.Answered.readings {tests : List Test} {r t : Recorded σ}
    (h : Answered tests r t) : t.readings = r.readings + tests.length := by
  obtain ⟨events, log, answers⟩ := h
  rw [Recorded.readings, Recorded.readings, log, List.countP_append, answers.length_eq,
    ← List.countP_eq_length_filter]

variable [World σ]

/-- A step of a runner makes the tests of looking for it and no others. -/
theorem Runner.step_answered {p : Program} {last : Nat} {outcome : Step} {next : Runner}
    {r t : Recorded σ} (h : step ⟨some p, last⟩ r = .ok (outcome, next, t)) :
    Answered ((p.consulted 0 last r).map Consultation.test) r t := by
  have looked := p.next_answered 0 last r
  rcases step_cases ⟨some p, last⟩ r with
    ⟨none, -⟩ | ⟨q, hq, ⟨u, hn, done⟩ | ⟨index, u, action, hn, -, executed⟩⟩
  · cases none
  · cases hq
    rw [done] at h
    cases h
    rwa [hn] at looked
  · cases hq
    rw [executed] at h
    cases h
    rw [hn] at looked
    have performed := looked.trans (.perform action u)
    rwa [List.append_nil] at performed

namespace Program

/-- As many tests are made as one pass more than loops nest can hold. -/
theorem length_consulted_le (p : Program) (last : Nat) (r : σ) :
    (p.consulted 0 last r).length ≤ p.questions.length * (1 + p.loopDepth) := by
  simpa using (p.consulted_inPasses 0 last r).length_le

/-- **Looking for the next step reads little.** From any number, looking for the next step, and so a
step of a runner, takes at most as many readings as there are tests in the program, times one more
than its loops nest. From the beginning it takes at most one for each test: the tests that are made
are some of those that are written, from left to right, and none is made twice. -/
theorem readings_bounded (p : Program) (r : Recorded σ) :
    (∀ last, (p.next last r).2.readings ≤ r.readings + p.questions.length * (1 + p.loopDepth) ∧
      ∃ outcome next t, Runner.step ⟨some p, last⟩ r = .ok (outcome, ⟨some p, next⟩, t) ∧
        t.readings ≤ r.readings + p.questions.length * (1 + p.loopDepth)) ∧
    (p.next 0 r).2.readings ≤ r.readings + p.questions.length ∧
    Answered ((p.consulted 0 0 r).map Consultation.test) r (p.next 0 r).2 ∧
    List.Sublist ((p.consulted 0 0 r).map Consultation.written) p.questions.zipIdx ∧
    ((p.consulted 0 0 r).map Consultation.place).Nodup := by
  have within {last : Nat} {t : Recorded σ}
      (h : Answered ((p.consulted 0 last r).map Consultation.test) r t) :
      t.readings = r.readings + (p.consulted 0 last r).length := by
    rw [h.readings, List.length_map]
  have once := p.consulted_sublist 0 r
  refine ⟨?_, ?_, p.next_answered 0 0 r, once, ?_⟩
  · intro last
    have few := p.length_consulted_le last r
    refine ⟨?_, ?_⟩
    · rw [within (p.next_answered 0 last r)]
      exact Nat.add_le_add_left few _
    · obtain ⟨outcome, next, t, executed⟩ := Runner.step_never_fails p last r
      refine ⟨outcome, next, t, executed, ?_⟩
      rw [within (Runner.step_answered executed)]
      exact Nat.add_le_add_left few _
  · rw [within (p.next_answered 0 0 r)]
    simpa using once.length_le
  · have places := once.map Prod.snd
    rw [List.map_map, List.zipIdx_map_snd] at places
    exact List.Nodup.sublist places (List.nodup_range' 1)

end Program

end Readings

end RobotControl
