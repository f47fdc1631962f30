import Mathlib.Data.List.Forall2
import RobotControl.Proofs.Execution.Recording

/-!
What conditions ask of a world.

A condition reads a sensor or compares the stored energy with an amount. Each of these is a test with
a result, and which test is made next depends on nothing but the results so far.

* `Condition.asked`: the tests that evaluating a condition makes, in order.
* `Condition.evaluate_answered`: the readings in the log of a recorded world answer them one for one.
* `DecidedBy.andThen`: what comes after tests is decided if they decided how to go on.
* `Condition.evaluate_decided`: in two worlds where the tests come out the same, the same tests are
  made and the condition has the same value.
-/

namespace RobotControl

/-- A test on the world. -/
inductive Question where
  | sensor (which : Sensor)
  | energyAtLeast (amount : Float)

/-- A test that was made, with its result. -/
structure Test where
  question : Question
  holds : Bool

/-- The event is the reading that a test was decided by. -/
inductive AnsweredBy : Test → Event → Prop where
  | sensor (which : Sensor) (value : Bool) : AnsweredBy ⟨.sensor which, value⟩ (.sensed which value)
  | energyAtLeast (amount energy : Float) :
      AnsweredBy ⟨.energyAtLeast amount, decide (amount ≤ energy)⟩ (.measured energy)

/-! ### Tests that are written -/

mutual

/-- The tests that a condition is written with, from left to right. -/
def Condition.questions : Condition → List Question
  | .constant _ => []
  | .sensor which => [.sensor which]
  | .energyAtLeast amount => [.energyAtLeast amount]
  | .and operands => Condition.questionsOf operands
  | .or operands => Condition.questionsOf operands
  | .not operand => operand.questions

def Condition.questionsOf : List Condition → List Question
  | [] => []
  | c :: cs => c.questions ++ Condition.questionsOf cs

end

/-! ### Tests that are made -/

section Asked

variable {σ : Type} [World σ]

mutual

/-- The tests that evaluating a condition makes, in order. -/
def Condition.asked : Condition → σ → List Test
  | .constant _, _ => []
  | .sensor which, s => [⟨.sensor which, (World.sense which s).1⟩]
  | .energyAtLeast amount, s => [⟨.energyAtLeast amount, (Condition.readAmount amount s).1⟩]
  | .and operands, s => Condition.askedAll operands s
  | .or operands, s => Condition.askedAny operands s
  | .not operand, s => operand.asked s

def Condition.askedAll : List Condition → σ → List Test
  | [], _ => []
  | c :: cs, s => c.asked s ++ match c.evaluate s with
    | (true, s) => Condition.askedAll cs s
    | (false, _) => []

def Condition.askedAny : List Condition → σ → List Test
  | [], _ => []
  | c :: cs, s => c.asked s ++ match c.evaluate s with
    | (true, _) => []
    | (false, s) => Condition.askedAny cs s

end

mutual

/-- A condition makes only tests that it is written with, and it does not change their order. -/
theorem Condition.asked_sublist : ∀ (c : Condition) (s : σ),
    List.Sublist ((c.asked s).map Test.question) c.questions
  | .constant _, _ => List.Sublist.slnil
  | .sensor _, _ => List.Sublist.refl _
  | .energyAtLeast _, _ => List.Sublist.refl _
  | .and operands, s => Condition.askedAll_sublist operands s
  | .or operands, s => Condition.askedAny_sublist operands s
  | .not operand, s => operand.asked_sublist s

theorem Condition.askedAll_sublist : ∀ (cs : List Condition) (s : σ),
    List.Sublist ((Condition.askedAll cs s).map Test.question) (Condition.questionsOf cs)
  | [], _ => List.Sublist.slnil
  | c :: cs, s => by
      rw [askedAll, List.map_append, questionsOf]
      apply (c.asked_sublist s).append
      rcases c.evaluate s with ⟨_ | _, t⟩
      · exact List.nil_sublist _
      · exact Condition.askedAll_sublist cs t

theorem Condition.askedAny_sublist : ∀ (cs : List Condition) (s : σ),
    List.Sublist ((Condition.askedAny cs s).map Test.question) (Condition.questionsOf cs)
  | [], _ => List.Sublist.slnil
  | c :: cs, s => by
      rw [askedAny, List.map_append, questionsOf]
      apply (c.asked_sublist s).append
      rcases c.evaluate s with ⟨_ | _, t⟩
      · exact Condition.askedAny_sublist cs t
      · exact List.nil_sublist _

end

end Asked

/-! ### The readings that answer them -/

namespace Recorded

variable {σ : Type}

/-- Between two recorded worlds these tests were made, one for each reading in the log. -/
def Answered (tests : List Test) (r t : Recorded σ) : Prop :=
  ∃ events, t.events = r.events ++ events ∧
    List.Forall₂ AnsweredBy tests (events.filter Event.isReading)

theorem Answered.refl (r : Recorded σ) : Answered [] r r :=
  ⟨[], (List.append_nil _).symm, .nil⟩

theorem Answered.trans {tests later : List Test} {r t u : Recorded σ} (first : Answered tests r t)
    (second : Answered later t u) : Answered (tests ++ later) r u := by
  obtain ⟨xs, ht, hxs⟩ := first
  obtain ⟨ys, hu, hys⟩ := second
  refine ⟨xs ++ ys, by rw [hu, ht, List.append_assoc], ?_⟩
  rw [List.filter_append]
  exact List.rel_append hxs hys

theorem Answered.note {test : Test} {event : Event} (h : AnsweredBy test event) (r : Recorded σ)
    (s : σ) : Answered [test] r (r.note event s) := by
  refine ⟨[event], events_note event r s, ?_⟩
  cases h with
  | sensor which value => exact .cons (.sensor which value) .nil
  | energyAtLeast amount energy => exact .cons (.energyAtLeast amount energy) .nil

variable [World σ]

/-- An attempt makes no test. -/
theorem Answered.perform (action : Action) (r : Recorded σ) :
    Answered [] r (perform action r).2 :=
  ⟨_, perform_events action r, .nil⟩

end Recorded

open Recorded (Answered)

section Readings

variable {σ : Type} [World σ]

mutual

/-- **The readings in the log answer the tests of a condition one for one.** -/
theorem Condition.evaluate_answered : ∀ (c : Condition) (r : Recorded σ),
    Answered (c.asked r) r (c.evaluate r).2
  | .constant _, r => .refl r
  | .sensor which, r => .note (.sensor which _) r _
  | .energyAtLeast amount, r => .note (.energyAtLeast amount _) r _
  | .and operands, r => Condition.evaluateAll_answered operands r
  | .or operands, r => Condition.evaluateAny_answered operands r
  | .not operand, r => operand.evaluate_answered r

theorem Condition.evaluateAll_answered : ∀ (cs : List Condition) (r : Recorded σ),
    Answered (Condition.askedAll cs r) r (Condition.evaluateAll cs r).2
  | [], r => .refl r
  | c :: cs, r => by
      have first := c.evaluate_answered r
      rw [askedAll, evaluateAll]
      rcases hc : c.evaluate r with ⟨_ | _, t⟩
      · rw [hc] at first
        exact first.trans (.refl t)
      · rw [hc] at first
        exact first.trans (Condition.evaluateAll_answered cs t)

theorem Condition.evaluateAny_answered : ∀ (cs : List Condition) (r : Recorded σ),
    Answered (Condition.askedAny cs r) r (Condition.evaluateAny cs r).2
  | [], r => .refl r
  | c :: cs, r => by
      have first := c.evaluate_answered r
      rw [askedAny, evaluateAny]
      rcases hc : c.evaluate r with ⟨_ | _, t⟩
      · rw [hc] at first
        exact first.trans (Condition.evaluateAny_answered cs t)
      · rw [hc] at first
        exact first.trans (.refl t)

end

end Readings

/-! ### Tests that come out the same -/

/-- Wherever both lists have a test, the two come out the same. -/
def SameResults (xs ys : List Test) : Prop :=
  ∀ (k : Nat) (x y : Test), xs[k]? = some x → ys[k]? = some y → x.holds = y.holds

/-- If tests come out the same, they are the same, and something holds. -/
def DecidedBy (xs ys : List Test) (P : Prop) : Prop :=
  SameResults xs ys → xs = ys ∧ P

section Decided

variable {xs ys xs' ys' : List Test} {P Q : Prop}

theorem SameResults.refl (xs : List Test) : SameResults xs xs := by
  intro k x y hx hy
  rw [hx, Option.some.injEq] at hy
  rw [hy]

theorem SameResults.of_append (h : SameResults (xs ++ xs') (ys ++ ys')) : SameResults xs ys := by
  intro k x y hx hy
  apply h k x y
  · exact (List.getElem?_append_left (List.getElem?_eq_some_iff.mp hx).1).trans hx
  · exact (List.getElem?_append_left (List.getElem?_eq_some_iff.mp hy).1).trans hy

theorem SameResults.of_append_left (h : SameResults (xs ++ xs') (xs ++ ys')) :
    SameResults xs' ys' := by
  intro k x y hx hy
  apply h (xs.length + k) x y
  · rw [List.getElem?_append_right (Nat.le_add_right _ _), Nat.add_sub_cancel_left, hx]
  · rw [List.getElem?_append_right (Nat.le_add_right _ _), Nat.add_sub_cancel_left, hy]

theorem DecidedBy.of_true (h : P) : DecidedBy [] [] P :=
  fun _ => ⟨rfl, h⟩

theorem DecidedBy.imp (h : DecidedBy xs ys P) (himp : P → Q) : DecidedBy xs ys Q :=
  fun same => (h same).imp_right himp

/-- One test decides what follows from its result. -/
theorem DecidedBy.single (question : Question) {value value' : Bool} :
    DecidedBy [⟨question, value⟩] [⟨question, value'⟩] (value = value') := by
  intro same
  obtain rfl : value = value' := same 0 _ _ rfl rfl
  exact ⟨rfl, rfl⟩

/-- **What comes after tests is decided if they decided how to go on.** -/
theorem DecidedBy.andThen (first : DecidedBy xs ys P) (second : P → DecidedBy xs' ys' Q) :
    DecidedBy (xs ++ xs') (ys ++ ys') Q := by
  intro same
  obtain ⟨rfl, hp⟩ := first same.of_append
  -- As many tests lie behind on either side, so what follows is compared place by place again.
  obtain ⟨rfl, hq⟩ := second hp same.of_append_left
  exact ⟨rfl, hq⟩

end Decided

section TwoWorlds

variable {σ τ : Type} [World σ] [World τ]

mutual

/-- **Where the tests of a condition come out the same, it makes the same tests and has the same
value.** -/
theorem Condition.evaluate_decided : ∀ (c : Condition) (s : σ) (t : τ),
    DecidedBy (c.asked s) (c.asked t) ((c.evaluate s).1 = (c.evaluate t).1)
  | .constant _, _, _ => .of_true rfl
  | .sensor which, _, _ => .single (.sensor which)
  | .energyAtLeast amount, _, _ => .single (.energyAtLeast amount)
  | .and operands, s, t => Condition.evaluateAll_decided operands s t
  | .or operands, s, t => Condition.evaluateAny_decided operands s t
  | .not operand, s, t => (operand.evaluate_decided s t).imp (congrArg Bool.not)

theorem Condition.evaluateAll_decided : ∀ (cs : List Condition) (s : σ) (t : τ),
    DecidedBy (Condition.askedAll cs s) (Condition.askedAll cs t)
      ((Condition.evaluateAll cs s).1 = (Condition.evaluateAll cs t).1)
  | [], _, _ => .of_true rfl
  | c :: cs, s, t => by
      rw [askedAll, askedAll, evaluateAll, evaluateAll]
      apply (c.evaluate_decided s t).andThen
      rcases c.evaluate s with ⟨value, s'⟩
      rcases c.evaluate t with ⟨_, t'⟩
      rintro rfl
      cases value with
      | false => exact .of_true rfl
      | true => exact Condition.evaluateAll_decided cs s' t'

theorem Condition.evaluateAny_decided : ∀ (cs : List Condition) (s : σ) (t : τ),
    DecidedBy (Condition.askedAny cs s) (Condition.askedAny cs t)
      ((Condition.evaluateAny cs s).1 = (Condition.evaluateAny cs t).1)
  | [], _, _ => .of_true rfl
  | c :: cs, s, t => by
      rw [askedAny, askedAny, evaluateAny, evaluateAny]
      apply (c.evaluate_decided s t).andThen
      rcases c.evaluate s with ⟨value, s'⟩
      rcases c.evaluate t with ⟨_, t'⟩
      rintro rfl
      cases value with
      | false => exact Condition.evaluateAny_decided cs s' t'
      | true => exact .of_true rfl

end

end TwoWorlds

end RobotControl
