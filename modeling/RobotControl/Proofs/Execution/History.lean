import RobotControl.Proofs.Execution.Operating
import RobotControl.Proofs.Saved.Runners
import RobotControl.World.Scripted

/-!
Histories of a runner.

A runner is used again and again, with programs attached and taken out, with cursors that come from
saved texts, and with a world that may be another one each time. No use of it ever fails in the
middle of a step.

* `Runner.use`, `Runner.Use`: what can be asked of a runner, and the runner it leaves.
* `Runner.uses_never_fail`: what is asked of a runner is answered, and leaves a runner.
* `Runner.Genuine`: runners whose cursor no text from elsewhere has set.
* `Runner.Genuine.within`: their cursor is a number of a step, or 0.
* `Runner.history_never_fails`: all of it together.
-/

namespace RobotControl.Runner

variable {σ : Type}

/-- What can be asked of a runner, with the world as it is at that time. -/
inductive Use (σ : Type) where
  | attach (p : Program)
  | detach
  | hasNext (s : σ)
  | step (s : σ)
  | stepN (n : Nat) (s : σ)
  | run (passes : Nat) (s : σ)
  /-- Replaces the runner by one read from a text, if the text is a runner. -/
  | load (text : String)

variable [World σ]

/-- The runner after an answer. Without a program it stays as it is; an action that cannot be
attempted is a failure. -/
def after {α : Type} (r : Runner) : Except RunnerError (α × Runner × σ) → Except StepError Runner
  | .ok (_, r, _) => .ok r
  | .error .noProgram => .ok r
  | .error (.step error) => .error error

/-- The runner after one use. -/
def use (r : Runner) : Use σ → Except StepError Runner
  | .attach p => .ok (r.attach p)
  | .detach => .ok r.detach.2
  | .hasNext _ => .ok r
  | .step s => r.after (r.step s)
  | .stepN n s => r.after (r.stepN n s)
  | .run _ _ => .ok r
  | .load text => .ok ((ofDocument? text).getD r)

/-! ### Uses never fail -/

theorem stepN_none (n cursor : Nat) (s : σ) :
    stepN n ⟨none, cursor⟩ s = .ok (0, ⟨none, cursor⟩, s) ∨
      stepN n ⟨none, cursor⟩ s = .error .noProgram := by
  cases n with
  | zero => exact .inl rfl
  | succ n => exact .inr rfl

/-- **No use of a runner fails.** -/
theorem use_never_fails (r : Runner) (u : Use σ) : ∃ r', r.use u = .ok r' := by
  obtain ⟨_ | p, cursor⟩ := r
  · -- Without a program only a request for no steps at all is answered.
    cases u with
    | stepN n s =>
        rcases stepN_none n cursor s with h | h
        · exact ⟨_, by rw [use, h, after]⟩
        · exact ⟨_, by rw [use, h, after]⟩
    | _ => exact ⟨_, rfl⟩
  · cases u with
    | step s =>
        obtain ⟨outcome, next, t, h⟩ := step_never_fails p cursor s
        exact ⟨_, by rw [use, h, after]⟩
    | stepN n s =>
        obtain ⟨count, next, t, h⟩ := stepN_never_fails p n cursor s
        exact ⟨_, by rw [use, h, after]⟩
    | _ => exact ⟨_, rfl⟩

/-- A history of uses, whatever they are, never fails. -/
theorem uses_never_fail (uses : List (Use σ)) (r : Runner) :
    ∃ r', uses.foldlM use r = .ok r' := by
  induction uses generalizing r with
  | nil => exact ⟨r, rfl⟩
  | cons u uses ih =>
      obtain ⟨next, h⟩ := r.use_never_fails u
      obtain ⟨r', hlater⟩ := ih next
      refine ⟨r', ?_⟩
      rw [List.foldlM_cons, h]
      exact hlater

/-! ### Where the cursor is -/

/-- The number of steps of the attached program, if there is one. -/
def stepCount (r : Runner) : Nat :=
  match r.program with
  | some p => p.stepCount
  | none => 0

/-- **The cursor of an executed step is the number of a step of the program.** -/
theorem cursor_of_executed {r r' : Runner} {s t : σ} {index : Nat} {attempt : Attempt}
    (h : r.step s = .ok (.executed index attempt, r', t)) :
    r'.cursor = index ∧ r'.program = r.program ∧ 1 ≤ index ∧ index ≤ r.stepCount := by
  rcases r.step_cases s with ⟨-, none⟩ | ⟨p, hp, ⟨u, -, done⟩ | ⟨i, u, action, -, leaf, executed⟩⟩
  · rw [none] at h
    cases h
  · rw [done] at h
    cases h
  · rw [executed] at h
    cases h
    have hbounds := Program.bounds_of_leaf? leaf
    rw [stepCount, hp]
    exact ⟨rfl, rfl, hbounds⟩

/-- The cursor is the number of a step or 0; it is 0 without a program. -/
def Within (r : Runner) : Prop :=
  r.cursor ≤ r.stepCount

theorem Within.step {r r' : Runner} {s t : σ} {outcome : Step} (hr : r.Within)
    (h : r.step s = .ok (outcome, r', t)) : r'.Within := by
  cases outcome with
  | executed index attempt =>
      obtain ⟨hcursor, hprogram, -, hle⟩ := cursor_of_executed h
      rw [Within, stepCount, hprogram, hcursor]
      exact hle
  | done =>
      rcases r.step_cases s with ⟨-, none⟩ | ⟨p, -, ⟨u, -, done⟩ | ⟨i, u, action, -, -, executed⟩⟩
      · rw [none] at h
        cases h
      · rw [done] at h
        cases h
        exact hr
      · rw [executed] at h
        cases h

theorem Within.stepMore {n delivered count : Nat} {r r' : Runner} {s t : σ} (hr : r.Within)
    (h : stepMore n delivered r s = .ok (count, r', t)) : r'.Within := by
  induction n generalizing delivered r s with
  | zero =>
      cases h
      exact hr
  | succ n ih =>
      rw [Runner.stepMore] at h
      split at h
      · cases h
      · rename_i hstep
        cases h
        exact hr.step hstep
      · rename_i hstep
        exact ih (hr.step hstep) h

theorem Within.after {α τ : Type} {r r' : Runner} {answer : Except RunnerError (α × Runner × τ)}
    (hr : r.Within) (hanswer : ∀ a q t, answer = .ok (a, q, t) → q.Within)
    (h : r.after answer = .ok r') : r'.Within := by
  rcases answer with (_ | _) | ⟨a, q, t⟩
  · cases h
    exact hr
  · cases h
  · cases h
    exact hanswer a _ t rfl

/-- A runner read from a text that some runner was saved as has its cursor where it was. -/
theorem Within.load {r r' : Runner} (hr : r.Within) (h : ofDocument? r.toJson.text = some r') :
    r'.Within := by
  obtain ⟨hcursor, hleaves⟩ := same_of_ofDocument? h
  have hcount : r'.stepCount = r.stepCount := by
    obtain ⟨_ | p, _⟩ := r <;> obtain ⟨_ | q, _⟩ := r'
    · rfl
    · cases hleaves
    · cases hleaves
    · have hlength := congrArg List.length (Option.some.inj hleaves)
      rwa [Program.length_leaves, Program.length_leaves] at hlength
  rw [Within, hcursor, hcount]
  exact hr

/-- Nothing but loading can put the cursor anywhere. -/
theorem Within.use {r r' : Runner} {u : Use σ} (hr : r.Within) (hu : ∀ text, u ≠ .load text)
    (h : r.use u = .ok r') : r'.Within := by
  cases u with
  | attach p =>
      cases h
      exact Nat.zero_le _
  | detach =>
      cases h
      exact Nat.zero_le _
  | hasNext s =>
      cases h
      exact hr
  | step s => exact hr.after (fun _ _ _ hs => hr.step hs) h
  | stepN n s => exact hr.after (fun _ _ _ hs => hr.stepMore hs) h
  | run passes s =>
      cases h
      exact hr
  | load text => exact absurd rfl (hu text)

variable (σ)

/-- The runner began with no step taken, and every text that was loaded since is one that such a
runner was saved as. -/
inductive Genuine : Runner → Prop where
  | empty : Genuine empty
  | ofProgram (p : Program) : Genuine (ofProgram p)
  | use {r r' : Runner} {u : Use σ} : Genuine r → (∀ text, u ≠ .load text) → r.use u = .ok r' →
      Genuine r'
  | load {r r' saved : Runner} : Genuine r → Genuine saved →
      r.use (.load saved.toJson.text : Use σ) = .ok r' → Genuine r'

variable {σ}

/-- **As long as no text from elsewhere was loaded, the cursor is the number of a step or 0.** -/
theorem Genuine.within {r : Runner} (h : Genuine σ r) : r.Within := by
  induction h with
  | empty => exact Nat.zero_le _
  | ofProgram p => exact Nat.zero_le _
  | use _ hu h ih => exact ih.use hu h
  | @load r r' saved _ _ h ihr ihsaved =>
      -- A text that cannot be loaded leaves the runner; one that can has the saved runner's cursor.
      cases h
      cases hload : ofDocument? saved.toJson.text with
      | none => exact ihr
      | some loaded => exact ihsaved.load hload

/-- **Stepping never fails, whatever the cursor is.** What follows any number is a step that can be
attempted in any world. So no history of a runner fails in the middle of a step, the cursor of an
executed step is the number that was delivered, and only a text from elsewhere can put the cursor
beyond the steps of the program. -/
theorem history_never_fails :
    (∀ (p : Program) (last index : Nat) (s t : σ), p.next last s = (some index, t) →
      1 ≤ index ∧ index ≤ p.stepCount ∧
        ∃ action, ∀ u : σ, p.performStep index u = .ok (perform action u)) ∧
    (∀ (r : Runner) (uses : List (Use σ)), ∃ r', uses.foldlM use r = .ok r') ∧
    (∀ (p : Program) (cursor : Nat) (s : σ),
      (∃ answer, step ⟨some p, cursor⟩ s = .ok answer) ∧
        ∀ n, ∃ answer, stepN n ⟨some p, cursor⟩ s = .ok answer) ∧
    (∀ (r r' : Runner) (s t : σ) (index : Nat) (attempt : Attempt),
      r.step s = .ok (.executed index attempt, r', t) →
        r'.cursor = index ∧ r'.program = r.program ∧
          ∃ p, r.program = some p ∧ 1 ≤ index ∧ index ≤ p.stepCount) ∧
    (∀ r, Genuine σ r → (∀ p, r.program = some p → r.cursor ≤ p.stepCount) ∧
      (r.program = none → r.cursor = 0)) := by
  refine ⟨?_, fun r uses => uses_never_fail uses r, ?_, ?_, ?_⟩
  · intro p last index s t h
    obtain ⟨action, leaf⟩ := p.exists_leaf?_of_next h
    obtain ⟨hlow, hhigh⟩ := Program.bounds_of_leaf? leaf
    exact ⟨hlow, hhigh, action, fun u => p.performStep_of_leaf? u leaf⟩
  · intro p cursor s
    obtain ⟨_, _, _, hstep⟩ := step_never_fails p cursor s
    refine ⟨⟨_, hstep⟩, fun n => ?_⟩
    obtain ⟨_, _, _, hsteps⟩ := stepN_never_fails p n cursor s
    exact ⟨_, hsteps⟩
  · intro r r' s t index attempt h
    obtain ⟨hcursor, hprogram, hlow, hhigh⟩ := cursor_of_executed h
    refine ⟨hcursor, hprogram, ?_⟩
    obtain ⟨_ | p, _⟩ := r
    · exact absurd (hlow.trans hhigh) (Nat.not_succ_le_zero 0)
    · exact ⟨p, rfl, hlow, hhigh⟩
  · intro r hr
    have hwithin := hr.within
    refine ⟨?_, ?_⟩
    · intro p hp
      rwa [Within, stepCount, hp] at hwithin
    · intro hnone
      rw [Within, stepCount, hnone] at hwithin
      exact Nat.le_zero.mp hwithin

/-- A cursor beyond the steps of a loop begins another pass, in any world. -/
theorem history_never_fails_beyond :
    (Program.loop (.sensor .wall) (.act .move)).next 7 ({ wall := ⟨[true]⟩ } : ScriptedWorld) =
        (some 1, { wall := ⟨[true]⟩ }) ∧
      (∃ action, ∀ u : ScriptedWorld,
        (Program.loop (.sensor .wall) (.act .move)).performStep 1 u = .ok (perform action u)) ∧
      ∃ r, [Use.load "\x7b\"program\":null,\"cursor\":7\x7d", .attach (.act .move),
        .step ({ } : ScriptedWorld), .step { }].foldlM use empty = .ok r := by
  have hnext : (Program.loop (.sensor .wall) (.act .move)).next 7
      ({ wall := ⟨[true]⟩ } : ScriptedWorld) = (some 1, { wall := ⟨[true]⟩ }) := rfl
  obtain ⟨hperform, hhistory, -⟩ := history_never_fails (σ := ScriptedWorld)
  exact ⟨hnext, (hperform _ 7 1 _ _ hnext).2.2, hhistory empty _⟩

end RobotControl.Runner
