import RobotControl.Proofs.Execution.Asking
import RobotControl.World.Scripted

/-!
Evaluating no further than needed.

An operand that cannot change the value of a condition is not evaluated. Where readings have fixed
results, nothing but the log shows that: the value is the one that all the tests of the condition
give. And nothing but the readings in the log matters: wherever they have the same results, the same
readings are made and the value is the same.

* `Condition.truth`: the value of a condition by the results of all its tests.
* `FixedReadings`: readings have the same results however often they are made.
* `Condition.readings`: the readings that evaluating a condition makes, in order.
* `Condition.evaluate_truth`: with fixed readings, evaluating gives the value by all the tests.
* `Recorded.events_of_map`: what is added to a log does not depend on what is in it.
* `Condition.readings_sublist`: the readings are some of those that the tests would make, in order.
* `Condition.evaluate_replayed`: a world that gives the results of the readings has them made again.
* `Condition.evaluate_of_trueIn`: with fixed readings it is enough that each reading in the log has
  the same result, in whatever order.
* `Condition.evaluate_fixed`: the three together.
-/

namespace RobotControl

/-! ### All tests -/

mutual

/-- The value of a condition by the results of all the tests that it is written with. -/
def Condition.truth (holds : Question → Bool) : Condition → Bool
  | .constant value => value
  | .sensor which => holds (.sensor which)
  | .energyAtLeast amount => holds (.energyAtLeast amount)
  | .and operands => Condition.truthAll holds operands
  | .or operands => Condition.truthAny holds operands
  | .not operand => !operand.truth holds

def Condition.truthAll (holds : Question → Bool) : List Condition → Bool
  | [] => true
  | c :: cs => c.truth holds && Condition.truthAll holds cs

def Condition.truthAny (holds : Question → Bool) : List Condition → Bool
  | [] => false
  | c :: cs => c.truth holds || Condition.truthAny holds cs

end

section Fixed

variable {σ : Type} [World σ]

/-- The result of a test in a world. -/
def Question.holds (s : σ) : Question → Bool
  | .sensor which => (World.sense which s).1
  | .energyAtLeast amount => (Condition.readAmount amount s).1

/-- The reading that a test makes in a world. -/
def Question.reading (s : σ) : Question → Event
  | .sensor which => .sensed which (World.sense which s).1
  | .energyAtLeast _ => .measured (World.energy s).1

/-- However often the world is read, its readings have the results that they have now. -/
structure FixedReadings (s : σ) : Prop where
  sense : ∀ {t : σ}, Reads s t → ∀ sensor, (World.sense sensor t).1 = (World.sense sensor s).1
  energy : ∀ {t : σ}, Reads s t → (World.energy t).1 = (World.energy s).1

/-- Readings are fixed where no reading changes the world. -/
theorem FixedReadings.of_unchanged {s : σ} (unchanged : ∀ {t : σ}, Reads s t → t = s) :
    FixedReadings s where
  sense reads _ := by rw [unchanged reads]
  energy reads := by rw [unchanged reads]

theorem FixedReadings.holds {s t : σ} (fixed : FixedReadings s) (h : Reads s t) :
    ∀ question : Question, question.holds t = question.holds s
  | .sensor which => fixed.sense h which
  | .energyAtLeast amount => congrArg (fun stored => decide (amount ≤ stored)) (fixed.energy h)

theorem FixedReadings.reading {s t : σ} (fixed : FixedReadings s) (h : Reads s t) :
    ∀ question : Question, question.reading t = question.reading s
  | .sensor which => congrArg (Event.sensed which) (fixed.sense h which)
  | .energyAtLeast _ => congrArg Event.measured (fixed.energy h)

variable {s : σ}

mutual

/-- **With fixed readings, a condition has the value that all its tests give.** -/
theorem Condition.evaluate_truth (fixed : FixedReadings s) : ∀ (c : Condition) {t : σ},
    Reads s t → (c.evaluate t).1 = c.truth (Question.holds s)
  | .constant _, _, _ => rfl
  | .sensor which, _, h => fixed.holds h (.sensor which)
  | .energyAtLeast amount, _, h => fixed.holds h (.energyAtLeast amount)
  | .and operands, _, h => Condition.evaluateAll_truth fixed operands h
  | .or operands, _, h => Condition.evaluateAny_truth fixed operands h
  | .not operand, _, h => congrArg Bool.not (operand.evaluate_truth fixed h)

theorem Condition.evaluateAll_truth (fixed : FixedReadings s) : ∀ (cs : List Condition) {t : σ},
    Reads s t → (Condition.evaluateAll cs t).1 = Condition.truthAll (Question.holds s) cs
  | [], _, _ => rfl
  | c :: cs, t, h => by
      have first := c.evaluate_truth fixed h
      have reads := h.trans (c.evaluate_reads t)
      rw [evaluateAll, truthAll, ← first]
      rcases hc : c.evaluate t with ⟨_ | _, u⟩
      · rfl
      · rw [hc] at reads
        exact Condition.evaluateAll_truth fixed cs reads

theorem Condition.evaluateAny_truth (fixed : FixedReadings s) : ∀ (cs : List Condition) {t : σ},
    Reads s t → (Condition.evaluateAny cs t).1 = Condition.truthAny (Question.holds s) cs
  | [], _, _ => rfl
  | c :: cs, t, h => by
      have first := c.evaluate_truth fixed h
      have reads := h.trans (c.evaluate_reads t)
      rw [evaluateAny, truthAny, ← first]
      rcases hc : c.evaluate t with ⟨_ | _, u⟩
      · rw [hc] at reads
        exact Condition.evaluateAny_truth fixed cs reads
      · rfl

end

end Fixed

/-! ### Readings that are made -/

namespace Recorded

variable {σ : Type} [World σ]

/-- Events that lie behind change nothing. -/
theorem faithful_append (log : Array Event) :
    Faithful fun r : Recorded σ => (⟨r.state, log ++ r.log⟩ : Recorded σ) := by
  constructor
  · intro sensor r
    simp only [World.sense, note, ← Array.append_push]
    rfl
  · intro r
    simp only [World.energy, note, ← Array.append_push]
    rfl
  · intro action r
    simp only [World.attempt, note, ← Array.append_push]
    rfl

/-- **What is added to a log does not depend on what is in it.** -/
theorem events_of_map {α : Type} {f : Recorded σ → α × Recorded σ}
    (hf : ∀ {g : Recorded σ → Recorded σ}, Faithful g → ∀ r, f (g r) = Prod.map id g (f r))
    (r : Recorded σ) : (f r).2.events = r.events ++ (f (fresh r.state)).2.events := by
  have hr : r = ⟨(fresh r.state).state, r.log ++ (fresh r.state).log⟩ := by
    simp [fresh]
  conv_lhs => rw [hr, hf (faithful_append r.log)]
  simp [events]

end Recorded

section Readings

variable {σ : Type} [World σ]

/-- The readings that evaluating a condition makes, in order. -/
def Condition.readings (c : Condition) (s : σ) : List Event :=
  (c.evaluate (Recorded.fresh s)).2.events

def Condition.readingsAll (cs : List Condition) (s : σ) : List Event :=
  (Condition.evaluateAll cs (Recorded.fresh s)).2.events

def Condition.readingsAny (cs : List Condition) (s : σ) : List Event :=
  (Condition.evaluateAny cs (Recorded.fresh s)).2.events

/-- Behind the readings of the first condition come those of the others, if it holds. -/
theorem Condition.readingsAll_cons (c : Condition) (cs : List Condition) (s : σ) :
    Condition.readingsAll (c :: cs) s = c.readings s ++ match c.evaluate s with
      | (true, s) => Condition.readingsAll cs s
      | (false, _) => [] := by
  have hmap : c.evaluate s = Prod.map id Recorded.state (c.evaluate (Recorded.fresh s)) :=
    c.evaluate_map Recorded.faithful_state (Recorded.fresh s)
  rw [readingsAll, evaluateAll, readings, hmap]
  rcases c.evaluate (Recorded.fresh s) with ⟨_ | _, r⟩
  · exact (List.append_nil r.events).symm
  · exact Recorded.events_of_map (fun hf => Condition.evaluateAll_map hf cs) r

/-- Behind the readings of the first condition come those of the others, unless it holds. -/
theorem Condition.readingsAny_cons (c : Condition) (cs : List Condition) (s : σ) :
    Condition.readingsAny (c :: cs) s = c.readings s ++ match c.evaluate s with
      | (true, _) => []
      | (false, s) => Condition.readingsAny cs s := by
  have hmap : c.evaluate s = Prod.map id Recorded.state (c.evaluate (Recorded.fresh s)) :=
    c.evaluate_map Recorded.faithful_state (Recorded.fresh s)
  rw [readingsAny, evaluateAny, readings, hmap]
  rcases c.evaluate (Recorded.fresh s) with ⟨_ | _, r⟩
  · exact Recorded.events_of_map (fun hf => Condition.evaluateAny_map hf cs) r
  · exact (List.append_nil r.events).symm

variable {s : σ}

mutual

/-- **With fixed readings, the readings that are made are some of those that the tests of the
condition would make**, in their order from left to right. -/
theorem Condition.readings_sublist (fixed : FixedReadings s) : ∀ (c : Condition) {t : σ},
    Reads s t → (c.readings t).Sublist (c.questions.map (Question.reading s))
  | .constant _, _, _ => List.Sublist.slnil
  | .sensor which, _, h => by
      rw [questions, List.map_singleton, ← fixed.reading h]
      exact List.Sublist.refl _
  | .energyAtLeast amount, _, h => by
      rw [questions, List.map_singleton, ← fixed.reading h]
      exact List.Sublist.refl _
  | .and operands, _, h => Condition.readingsAll_sublist fixed operands h
  | .or operands, _, h => Condition.readingsAny_sublist fixed operands h
  | .not operand, _, h => operand.readings_sublist fixed h

theorem Condition.readingsAll_sublist (fixed : FixedReadings s) : ∀ (cs : List Condition) {t : σ},
    Reads s t →
      (Condition.readingsAll cs t).Sublist ((Condition.questionsOf cs).map (Question.reading s))
  | [], _, _ => List.Sublist.slnil
  | c :: cs, t, h => by
      have reads := h.trans (c.evaluate_reads t)
      rw [readingsAll_cons, questionsOf, List.map_append]
      apply (c.readings_sublist fixed h).append
      rcases hc : c.evaluate t with ⟨_ | _, u⟩
      · exact List.nil_sublist _
      · rw [hc] at reads
        exact Condition.readingsAll_sublist fixed cs reads

theorem Condition.readingsAny_sublist (fixed : FixedReadings s) : ∀ (cs : List Condition) {t : σ},
    Reads s t →
      (Condition.readingsAny cs t).Sublist ((Condition.questionsOf cs).map (Question.reading s))
  | [], _, _ => List.Sublist.slnil
  | c :: cs, t, h => by
      have reads := h.trans (c.evaluate_reads t)
      rw [readingsAny_cons, questionsOf, List.map_append]
      apply (c.readings_sublist fixed h).append
      rcases hc : c.evaluate t with ⟨_ | _, u⟩
      · rw [hc] at reads
        exact Condition.readingsAny_sublist fixed cs reads
      · exact List.nil_sublist _

end

end Readings

/-! ### Readings that are made again -/

section Replay

variable {σ τ : Type} [World σ] [World τ]

/-- Making the reading has the result that the event keeps. -/
def Event.TrueIn (t : τ) : Event → Prop
  | .sensed which value => (World.sense which t).1 = value
  | .measured energy => (World.energy t).1 = energy
  | .attempted _ => False

/-- The world after the reading. -/
def Event.after (t : τ) : Event → τ
  | .sensed which _ => (World.sense which t).2
  | .measured _ => (World.energy t).2
  | .attempted _ => t

/-- Making the readings one after another has the results that the events keep. -/
def Gives : List Event → τ → Prop
  | [], _ => True
  | event :: later, t => event.TrueIn t ∧ Gives later (event.after t)

theorem Event.after_reads (t : τ) : ∀ event : Event, Reads t (event.after t)
  | .sensed which _ => .sense which .refl
  | .measured _ => .energy .refl
  | .attempted _ => .refl

theorem FixedReadings.of_reads {t u : τ} (fixed : FixedReadings t) (h : Reads t u) :
    FixedReadings u :=
  ⟨fun h' sensor => (fixed.sense (h.trans h') sensor).trans (fixed.sense h sensor).symm,
    fun h' => (fixed.energy (h.trans h')).trans (fixed.energy h).symm⟩

theorem FixedReadings.trueIn_iff {t u : τ} (fixed : FixedReadings t) (h : Reads t u) :
    ∀ event : Event, event.TrueIn u ↔ event.TrueIn t
  | .sensed which _ => by rw [Event.TrueIn, Event.TrueIn, fixed.sense h]
  | .measured _ => by rw [Event.TrueIn, Event.TrueIn, fixed.energy h]
  | .attempted _ => Iff.rfl

/-- **Where readings are fixed, it does not matter in which order they are made.** -/
theorem FixedReadings.gives_iff {t : τ} (fixed : FixedReadings t) {events : List Event} :
    Gives events t ↔ ∀ event ∈ events, event.TrueIn t := by
  induction events generalizing t with
  | nil => exact iff_of_true trivial fun _ h => absurd h List.not_mem_nil
  | cons event later ih =>
      have reads := event.after_reads t
      rw [Gives, List.forall_mem_cons, ih (fixed.of_reads reads)]
      simp only [fixed.trueIn_iff reads]

mutual

/-- **A world that gives the results of the readings has them made again, with the same value.** -/
theorem Condition.evaluate_replayed : ∀ (c : Condition) (s : σ) (t : τ) (later : List Event),
    Gives (c.readings s ++ later) t → c.readings t = c.readings s ∧
      (c.evaluate t).1 = (c.evaluate s).1 ∧ Gives later (c.evaluate t).2
  | .constant _, _, _, _, h => ⟨rfl, rfl, h⟩
  | .sensor which, _, _, _, h => ⟨congrArg (fun value => [Event.sensed which value]) h.1, h.1, h.2⟩
  | .energyAtLeast amount, _, _, _, h =>
      ⟨congrArg (fun energy => [Event.measured energy]) h.1,
        congrArg (fun energy => decide (amount ≤ energy)) h.1, h.2⟩
  | .and operands, s, t, later, h => Condition.evaluateAll_replayed operands s t later h
  | .or operands, s, t, later, h => Condition.evaluateAny_replayed operands s t later h
  | .not operand, s, t, later, h => by
      obtain ⟨hreadings, hvalue, hlater⟩ := operand.evaluate_replayed s t later h
      exact ⟨hreadings, congrArg Bool.not hvalue, hlater⟩

theorem Condition.evaluateAll_replayed : ∀ (cs : List Condition) (s : σ) (t : τ)
    (later : List Event), Gives (Condition.readingsAll cs s ++ later) t →
      Condition.readingsAll cs t = Condition.readingsAll cs s ∧
        (Condition.evaluateAll cs t).1 = (Condition.evaluateAll cs s).1 ∧
        Gives later (Condition.evaluateAll cs t).2
  | [], _, _, _, h => ⟨rfl, rfl, h⟩
  | c :: cs, s, t, later, h => by
      rw [readingsAll_cons, List.append_assoc] at h
      obtain ⟨hreadings, hvalue, hlater⟩ := c.evaluate_replayed s t _ h
      rw [readingsAll_cons, readingsAll_cons, evaluateAll, evaluateAll, hreadings]
      revert hvalue hlater
      rcases c.evaluate s with ⟨_, s'⟩
      rcases c.evaluate t with ⟨value, t'⟩
      rintro rfl hlater
      cases value with
      | false => exact ⟨rfl, rfl, hlater⟩
      | true =>
          obtain ⟨hreadings', hrest⟩ := Condition.evaluateAll_replayed cs s' t' later hlater
          exact ⟨congrArg (c.readings s ++ ·) hreadings', hrest⟩

theorem Condition.evaluateAny_replayed : ∀ (cs : List Condition) (s : σ) (t : τ)
    (later : List Event), Gives (Condition.readingsAny cs s ++ later) t →
      Condition.readingsAny cs t = Condition.readingsAny cs s ∧
        (Condition.evaluateAny cs t).1 = (Condition.evaluateAny cs s).1 ∧
        Gives later (Condition.evaluateAny cs t).2
  | [], _, _, _, h => ⟨rfl, rfl, h⟩
  | c :: cs, s, t, later, h => by
      rw [readingsAny_cons, List.append_assoc] at h
      obtain ⟨hreadings, hvalue, hlater⟩ := c.evaluate_replayed s t _ h
      rw [readingsAny_cons, readingsAny_cons, evaluateAny, evaluateAny, hreadings]
      revert hvalue hlater
      rcases c.evaluate s with ⟨_, s'⟩
      rcases c.evaluate t with ⟨value, t'⟩
      rintro rfl hlater
      cases value with
      | false =>
          obtain ⟨hreadings', hrest⟩ := Condition.evaluateAny_replayed cs s' t' later hlater
          exact ⟨congrArg (c.readings s ++ ·) hreadings', hrest⟩
      | true => exact ⟨rfl, rfl, hlater⟩

end

theorem Condition.evaluate_of_gives {c : Condition} {s : σ} {t : τ} (h : Gives (c.readings s) t) :
    c.readings t = c.readings s ∧ (c.evaluate t).1 = (c.evaluate s).1 := by
  rw [← List.append_nil (c.readings s)] at h
  obtain ⟨hreadings, hvalue, -⟩ := c.evaluate_replayed s t [] h
  exact ⟨hreadings, hvalue⟩

/-- Where readings are fixed, it is enough that every reading in the log has the same result. -/
theorem Condition.evaluate_of_trueIn {c : Condition} {s : σ} {t : τ} (fixed : FixedReadings t)
    (h : ∀ event ∈ c.readings s, event.TrueIn t) :
    c.readings t = c.readings s ∧ (c.evaluate t).1 = (c.evaluate s).1 :=
  Condition.evaluate_of_gives (fixed.gives_iff.mpr h)

end Replay

/-! ### Scripted worlds -/

/-- No sensor has more than one reading left to give. -/
structure ScriptedWorld.Settled (w : ScriptedWorld) : Prop where
  wall : w.wall.pending.length ≤ 1
  atItem : w.atItem.pending.length ≤ 1
  canHitRobot : w.canHitRobot.pending.length ≤ 1

theorem Readings.next_of_length_le {r : Readings} (h : r.pending.length ≤ 1) : r.next.2 = r := by
  obtain ⟨pending⟩ := r
  match pending with
  | [] => rfl
  | [_] => rfl
  | _ :: _ :: _ => simp at h

/-- A settled world gives its last readings for ever. -/
theorem ScriptedWorld.Settled.fixedReadings {w : ScriptedWorld} (h : w.Settled) :
    FixedReadings w := by
  have sense_state (sensor : Sensor) : (World.sense sensor w).2 = w := by
    cases sensor with
    | wall => exact congrArg (fun r => { w with wall := r }) (Readings.next_of_length_le h.wall)
    | atItem => exact congrArg (fun r => { w with atItem := r }) (Readings.next_of_length_le h.atItem)
    | canHitRobot =>
        exact congrArg (fun r => { w with canHitRobot := r })
          (Readings.next_of_length_le h.canHitRobot)
  apply FixedReadings.of_unchanged
  intro t reads
  induction reads with
  | refl => rfl
  | sense sensor _ ih => rw [ih, sense_state]
  | energy _ ih => exact ih

/-! ### Short circuits -/

/-- **Evaluating no further than needed gives what evaluating everything gives**, and depends on
nothing but the readings that it makes: where readings are fixed, the value of a condition is that
by all its tests, the readings are some of theirs in their order, and any world that gives the same
results to them, one after another, has the same readings made and gives the same value. -/
theorem Condition.evaluate_fixed {σ : Type} [World σ] {s : σ} (fixed : FixedReadings s)
    (c : Condition) :
    (c.evaluate s).1 = c.truth (Question.holds s) ∧
      (c.readings s).Sublist (c.questions.map (Question.reading s)) ∧
      ∀ {τ : Type} [World τ] (t : τ), Gives (c.readings s) t →
        c.readings t = c.readings s ∧ (c.evaluate t).1 = (c.evaluate s).1 := by
  refine ⟨c.evaluate_truth fixed .refl, c.readings_sublist fixed .refl, ?_⟩
  intro τ _ t h
  exact Condition.evaluate_of_gives h

/-- A robot is in the way, or there is no item to pick up. -/
def Condition.onward : Condition :=
  .or [.and [.sensor .wall, .sensor .canHitRobot], .not (.sensor .atItem)]

/-- Nothing is near the robot, now or later. -/
def ScriptedWorld.empty : ScriptedWorld :=
  {}

/-- A wall and an item turn up behind the first readings, and a robot stands there from the start. -/
def ScriptedWorld.filling : ScriptedWorld :=
  { wall := ⟨[false, true]⟩, atItem := ⟨[false, true]⟩, canHitRobot := ⟨[true]⟩ }

/-- Neither the robot in the way nor what turns up later is read, so the two worlds do not differ. -/
theorem Condition.evaluate_fixed_onward :
    FixedReadings ScriptedWorld.empty ∧
      Condition.onward.readings ScriptedWorld.empty =
        [.sensed .wall false, .sensed .atItem false] ∧
      (Condition.onward.evaluate ScriptedWorld.empty).1 =
        Condition.onward.truth (Question.holds ScriptedWorld.empty) ∧
      Condition.onward.readings ScriptedWorld.filling =
        Condition.onward.readings ScriptedWorld.empty ∧
      (Condition.onward.evaluate ScriptedWorld.filling).1 =
        (Condition.onward.evaluate ScriptedWorld.empty).1 := by
  have settled : ScriptedWorld.empty.Settled := ⟨by decide, by decide, by decide⟩
  obtain ⟨value, -, elsewhere⟩ := Condition.evaluate_fixed settled.fixedReadings Condition.onward
  have gives : Gives (Condition.onward.readings ScriptedWorld.empty) ScriptedWorld.filling :=
    ⟨rfl, rfl, trivial⟩
  exact ⟨settled.fixedReadings, rfl, value, elsewhere ScriptedWorld.filling gives⟩

end RobotControl
