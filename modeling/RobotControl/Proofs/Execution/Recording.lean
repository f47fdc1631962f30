import RobotControl.Proofs.Execution.Reaching

/-!
What a recorded execution leaves in its log.

* `Reads.readsOnly`, `Program.next_readings`: readings, and so looking for the next step, add readings
  to the log and nothing else.
* `perform_events`: attempting an action adds the attempt and nothing else.
* `Program.run_map`: an execution goes the same way whether or not its world is recorded.
-/

namespace RobotControl

/-- The event reads a sensor or the energy store. -/
def Event.isReading : Event → Bool
  | .sensed _ _ | .measured _ => true
  | .attempted _ => false

/-- The attempts among events, in order. -/
def Event.attempts (events : List Event) : List Attempt :=
  events.filterMap fun
    | .attempted attempt => some attempt
    | _ => none

theorem Event.attempts_append (xs ys : List Event) :
    attempts (xs ++ ys) = attempts xs ++ attempts ys :=
  List.filterMap_append

theorem Event.attempts_eq_nil {events : List Event} (h : ∀ e ∈ events, e.isReading) :
    attempts events = [] := by
  refine List.filterMap_eq_nil_iff.mpr ?_
  intro e he
  have reading := h e he
  cases e with
  | sensed => rfl
  | measured => rfl
  | attempted => contradiction

theorem Event.attempts_prefix {xs ys : List Event} (h : xs <+: ys) : attempts xs <+: attempts ys :=
  h.filterMap _

namespace Recorded

variable {σ : Type}

/-- The log as a list, the oldest event first. -/
def events (r : Recorded σ) : List Event :=
  r.log.toList

@[simp] theorem events_fresh (s : σ) : (fresh s).events = [] := rfl

@[simp] theorem events_note (event : Event) (r : Recorded σ) (s : σ) :
    (r.note event s).events = r.events ++ [event] := by
  simp [events, note]

/-- Between two recorded worlds only readings were added to the log. -/
def ReadsOnly (r t : Recorded σ) : Prop :=
  ∃ readings : List Event, (∀ e ∈ readings, e.isReading) ∧ t.events = r.events ++ readings

theorem ReadsOnly.refl (r : Recorded σ) : ReadsOnly r r :=
  ⟨[], by simp, by simp⟩

theorem ReadsOnly.trans {r t u : Recorded σ} (first : ReadsOnly r t) (second : ReadsOnly t u) :
    ReadsOnly r u := by
  obtain ⟨xs, hxs, ht⟩ := first
  obtain ⟨ys, hys, hu⟩ := second
  refine ⟨xs ++ ys, ?_, by rw [hu, ht, List.append_assoc]⟩
  intro e he
  rcases List.mem_append.mp he with he | he
  · exact hxs e he
  · exact hys e he

theorem ReadsOnly.note {event : Event} (h : event.isReading) (r : Recorded σ) (s : σ) :
    ReadsOnly r (r.note event s) :=
  ⟨[event], by simpa using h, events_note event r s⟩

/-- Readings leave the attempts in the log as they were. -/
theorem ReadsOnly.attempts {r t : Recorded σ} (h : ReadsOnly r t) :
    Event.attempts t.events = Event.attempts r.events := by
  obtain ⟨readings, only, events⟩ := h
  rw [events, Event.attempts_append, Event.attempts_eq_nil only, List.append_nil]

end Recorded

open Recorded (ReadsOnly)

section Readings

variable {σ : Type} [World σ]

/-- Readings add only readings to the log. -/
theorem Reads.readsOnly {r t : Recorded σ} (h : Reads r t) : ReadsOnly r t := by
  induction h with
  | refl => exact .refl r
  | sense sensor _ ih => exact ih.trans (.note rfl _ _)
  | energy _ ih => exact ih.trans (.note rfl _ _)

/-- Looking for the next step adds only readings to the log. -/
theorem Program.next_readings (p : Program) (last : Nat) (r : Recorded σ) :
    ReadsOnly r (p.next last r).2 :=
  (p.next_reads last r).readsOnly

/-- Attempting an action adds the attempt to the log and nothing else. -/
theorem perform_events (action : Action) (r : Recorded σ) :
    (perform action r).2.events = r.events ++ [.attempted (perform action r).1] :=
  Recorded.events_note _ r _

end Readings

/-! ### Recording changes nothing -/

/-- A map between worlds under which readings and outcomes stay the same. -/
structure Faithful {σ τ : Type} [World σ] [World τ] (f : τ → σ) : Prop where
  sense : ∀ sensor t, World.sense sensor (f t) = Prod.map id f (World.sense sensor t)
  energy : ∀ t, World.energy (f t) = Prod.map id f (World.energy t)
  attempt : ∀ action t, World.attempt action (f t) = Prod.map id f (World.attempt action t)

/-- Whether or not a world is recorded, executions in it go the same way. -/
theorem Recorded.faithful_state {σ : Type} [World σ] :
    Faithful (Recorded.state : Recorded σ → σ) :=
  ⟨fun _ _ => rfl, fun _ => rfl, fun _ _ => rfl⟩

section Faithful

variable {σ τ : Type} [World σ] [World τ] {f : τ → σ}

mutual

theorem Condition.evaluate_map (hf : Faithful f) : ∀ (c : Condition) (t : τ),
    c.evaluate (f t) = Prod.map id f (c.evaluate t)
  | .constant _, _ => rfl
  | .sensor which, t => hf.sense which t
  | .energyAtLeast _, t => by
      simp only [Condition.evaluate, Condition.readAmount, hf.energy]
      rfl
  | .and operands, t => Condition.evaluateAll_map hf operands t
  | .or operands, t => Condition.evaluateAny_map hf operands t
  | .not operand, t => by
      simp only [Condition.evaluate, operand.evaluate_map hf]
      rfl

theorem Condition.evaluateAll_map (hf : Faithful f) : ∀ (cs : List Condition) (t : τ),
    Condition.evaluateAll cs (f t) = Prod.map id f (Condition.evaluateAll cs t)
  | [], _ => rfl
  | c :: cs, t => by
      simp only [Condition.evaluateAll, c.evaluate_map hf]
      rcases c.evaluate t with ⟨_ | _, u⟩
      · rfl
      · exact Condition.evaluateAll_map hf cs u

theorem Condition.evaluateAny_map (hf : Faithful f) : ∀ (cs : List Condition) (t : τ),
    Condition.evaluateAny cs (f t) = Prod.map id f (Condition.evaluateAny cs t)
  | [], _ => rfl
  | c :: cs, t => by
      simp only [Condition.evaluateAny, c.evaluate_map hf]
      rcases c.evaluate t with ⟨_ | _, u⟩
      · exact Condition.evaluateAny_map hf cs u
      · rfl

end

theorem perform_map (hf : Faithful f) (action : Action) (t : τ) :
    perform action (f t) = Prod.map id f (perform action t) := by
  simp only [perform, hf.attempt]
  rfl

omit [World σ] [World τ] in
theorem repeatWhile_map {test : σ → Bool × σ} {test' : τ → Bool × τ} {once : σ → Option (Nat × σ)}
    {once' : τ → Option (Nat × τ)} (htest : ∀ t, test (f t) = Prod.map id f (test' t))
    (honce : ∀ t, once (f t) = (once' t).map (Prod.map id f)) (passes attempted : Nat) (t : τ) :
    repeatWhile test once passes attempted (f t) =
      (repeatWhile test' once' passes attempted t).map (Prod.map id f) := by
  induction passes generalizing attempted t with
  | zero => rfl
  | succ passes ih =>
      simp only [repeatWhile, htest]
      rcases test' t with ⟨_ | _, u⟩
      · rfl
      · simp only [Prod.map_apply, id_eq, honce]
        rcases once' u with _ | ⟨_ | count, v⟩
        · rfl
        · rfl
        · exact ih (attempted + (count + 1)) v

mutual

/-- A run goes the same way in both worlds. -/
theorem Program.run_map (hf : Faithful f) (passes : Nat) : ∀ (p : Program) (t : τ),
    p.run passes (f t) = (p.run passes t).map (Prod.map id f)
  | .act action, t => by
      simp only [Program.run, perform_map hf]
      rfl
  | .seq body, t => Program.runAll_map hf passes body t
  | .branch test thenPart elsePart, t => by
      simp only [Program.run, test.evaluate_map hf]
      rcases test.evaluate t with ⟨_ | _, u⟩
      · exact elsePart.run_map hf passes u
      · exact thenPart.run_map hf passes u
  | .loop test body, t =>
      repeatWhile_map (fun t => test.evaluate_map hf t) (fun t => body.run_map hf passes t)
        passes 0 t

theorem Program.runAll_map (hf : Faithful f) (passes : Nat) : ∀ (ps : List Program) (t : τ),
    Program.runAll passes ps (f t) = (Program.runAll passes ps t).map (Prod.map id f)
  | [], _ => rfl
  | p :: ps, t => by
      simp only [Program.runAll, p.run_map hf]
      rcases p.run passes t with _ | ⟨first, u⟩
      · rfl
      · simp only [Option.map_some, Prod.map_apply, id_eq, Program.runAll_map hf passes ps u]
        rcases Program.runAll passes ps u with _ | ⟨rest, v⟩
        · rfl
        · rfl

end

end Faithful

end RobotControl
