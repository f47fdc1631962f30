import RobotControl.Arena.Dynamics
import RobotControl.Proofs.Execution.Reaching

/-!
What actions do.

`Arena.Carried` says once what each action changes when it is carried out, and under which
conditions. Whatever is kept by these changes is kept by every execution.

* `Arena.hit_cases`, `Arena.shot_cases`: what a hit and a shot take away.
* `Arena.act_eq_ok_iff`: an action is carried out in exactly this way.
* `Arena.attempt_cases`: an attempt either carries the action out or leaves all but the journal.
* `Arena.attempt_eq_applied_iff`: an attempt succeeds exactly if the action can be carried out.
* `Arena.keeps_of_carried`: what the actions keep holds in every arena that is reached.
-/

namespace RobotControl

namespace Arena

variable {a b : Arena} {action : Action} {cost : Float} {cell : Cell}

theorem obstructed_iff : a.obstructed cell ↔ cell ∈ a.walls ∨ cell ∈ a.others := by
  rw [obstructed, Bool.or_eq_true, List.contains_iff_mem, List.contains_iff_mem]

theorem openAhead_eq_some_iff : a.openAhead = some cell ↔
    a.grid.neighbour a.robot.cell a.robot.facing = some cell ∧ ¬ a.obstructed cell := by
  rw [openAhead, Option.filter_eq_some_iff, Bool.not_eq_true', Bool.not_eq_true]

/-- The arena after a price has been taken from the store. -/
def paid (a : Arena) (cost : Float) : Arena :=
  { a with robot := { a.robot with energy := a.robot.energy - cost } }

/-- What a shot leaves. -/
def shot (a : Arena) : Arena :=
  match a.firstOccupiedAhead with
  | some cell => a.hit cell
  | none => a

/-! ### Hits and shots -/

/-- A hit takes away either the robot on a cell or the batteries on it. -/
theorem hit_cases (a : Arena) (cell : Cell) :
    (cell ∈ a.others ∧ a.hit cell = { a with others := a.others.filter (· ≠ cell) }) ∨
      (cell ∉ a.others ∧ a.hit cell = { a with batteries := a.batteries.clear cell }) := by
  rw [hit]
  by_cases h : cell ∈ a.others
  · exact .inl ⟨h, if_pos (List.contains_iff_mem.mpr h)⟩
  · exact .inr ⟨h, if_neg fun hc => h (List.contains_iff_mem.mp hc)⟩

/-- A shot hits a cell ahead of the robot, or it hits nothing. -/
theorem shot_cases (a : Arena) :
    (a.firstOccupiedAhead = none ∧ a.shot = a) ∨
      ∃ target, a.firstOccupiedAhead = some target ∧ a.shot = a.hit target := by
  rw [shot]
  cases h : a.firstOccupiedAhead with
  | none => exact .inl ⟨rfl, rfl⟩
  | some target => exact .inr ⟨target, rfl, rfl⟩

theorem hit_grid (a : Arena) (cell : Cell) : (a.hit cell).grid = a.grid := by
  rw [hit]
  split <;> rfl

theorem hit_robot (a : Arena) (cell : Cell) : (a.hit cell).robot = a.robot := by
  rw [hit]
  split <;> rfl

theorem hit_costs (a : Arena) (cell : Cell) : (a.hit cell).costs = a.costs := by
  rw [hit]
  split <;> rfl

theorem shot_of_some (ahead : a.firstOccupiedAhead = some cell) : a.shot = a.hit cell := by
  rw [shot, ahead]

theorem shot_grid (a : Arena) : a.shot.grid = a.grid := by
  rw [shot]
  split
  · exact a.hit_grid _
  · rfl

theorem shot_robot (a : Arena) : a.shot.robot = a.robot := by
  rw [shot]
  split
  · exact a.hit_robot _
  · rfl

theorem shot_costs (a : Arena) : a.shot.costs = a.costs := by
  rw [shot]
  split
  · exact a.hit_costs _
  · rfl

/-! ### Actions -/

/-- What an action makes of the arena. -/
inductive Carried (a : Arena) : Action → Arena → Prop where
  | move {cell : Cell} : ¬ a.robot.energy < a.costs.move → a.openAhead = some cell →
      Carried a .move
        { a with robot := { a.robot with cell, energy := a.robot.energy - a.costs.move } }
  | turnClockwise : ¬ a.robot.energy < a.costs.turn →
      Carried a .turnClockwise { a with robot := { a.robot with
        facing := a.robot.facing.clockwise, energy := a.robot.energy - a.costs.turn } }
  | turnCounterclockwise : ¬ a.robot.energy < a.costs.turn →
      Carried a .turnCounterclockwise { a with robot := { a.robot with
        facing := a.robot.facing.counterclockwise, energy := a.robot.energy - a.costs.turn } }
  | shoot : ¬ a.robot.energy < a.costs.shoot → Carried a .shoot (a.paid a.costs.shoot).shot
  | pickUpAndUse {charge : Float} {batteries : Batteries} :
      a.batteries.take? a.robot.cell = some (charge, batteries) →
      Carried a .pickUpAndUse { a with
        batteries, robot := { a.robot with
          energy := lesser (a.robot.energy + charge) a.costs.capacity } }

theorem bind_pay_eq_ok_iff {f : Arena → Arena} :
    (do let a ← a.pay cost; return f a) = Except.ok b ↔
      ¬ a.robot.energy < cost ∧ b = f (a.paid cost) := by
  rw [pay]
  constructor
  · intro h
    by_cases poor : a.robot.energy < cost
    · rw [if_pos poor] at h
      cases h
    · rw [if_neg poor] at h
      exact ⟨poor, (Except.ok.inj h).symm⟩
  · rintro ⟨poor, rfl⟩
    rw [if_neg poor]
    rfl

theorem move_eq_ok_iff : a.move = .ok b ↔ Carried a .move b := by
  rw [move]
  constructor
  · intro h
    by_cases poor : a.robot.energy < a.costs.move
    · rw [if_pos poor] at h
      cases h
    · rw [if_neg poor] at h
      rcases hc : a.openAhead with _ | cell
      · rw [hc] at h
        cases h
      · rw [hc] at h
        obtain ⟨-, rfl⟩ := bind_pay_eq_ok_iff.mp h
        exact .move poor hc
  · intro h
    cases h with
    | move poor hc =>
        rw [if_neg poor, hc]
        exact bind_pay_eq_ok_iff.mpr ⟨poor, rfl⟩

theorem pickUpAndUse_eq_ok_iff : a.pickUpAndUse = .ok b ↔ Carried a .pickUpAndUse b := by
  rw [pickUpAndUse]
  constructor
  · intro h
    rcases ht : a.batteries.take? a.robot.cell with _ | ⟨charge, batteries⟩
    · rw [ht] at h
      cases h
    · rw [ht] at h
      cases h
      exact .pickUpAndUse ht
  · intro h
    cases h with
    | pickUpAndUse ht => rw [ht]

/-- **An action is carried out in this way only.** -/
theorem act_eq_ok_iff : a.act action = .ok b ↔ Carried a action b := by
  cases action with
  | move => exact move_eq_ok_iff
  | turnClockwise =>
      refine bind_pay_eq_ok_iff.trans ⟨?_, ?_⟩
      · rintro ⟨poor, rfl⟩
        exact .turnClockwise poor
      · intro h
        cases h with
        | turnClockwise poor => exact ⟨poor, rfl⟩
  | turnCounterclockwise =>
      refine bind_pay_eq_ok_iff.trans ⟨?_, ?_⟩
      · rintro ⟨poor, rfl⟩
        exact .turnCounterclockwise poor
      · intro h
        cases h with
        | turnCounterclockwise poor => exact ⟨poor, rfl⟩
  | shoot =>
      refine (bind_pay_eq_ok_iff (f := shot)).trans ⟨?_, ?_⟩
      · rintro ⟨poor, rfl⟩
        exact .shoot poor
      · intro h
        cases h with
        | shoot poor => exact ⟨poor, rfl⟩
  | pickUpAndUse => exact pickUpAndUse_eq_ok_iff

/-- An attempt carries the action out, or it leaves all but the journal. -/
theorem attempt_cases (action : Action) (a : Arena) :
    (∃ b, Carried a action b ∧ a.attempt action = (.applied, b.enter ⟨action, .applied⟩)) ∨
      ∃ why, a.act action = .error why ∧
        a.attempt action = (.refused why, a.enter ⟨action, .refused why⟩) := by
  rw [attempt]
  rcases h : a.act action with why | b
  · exact .inr ⟨why, rfl, rfl⟩
  · exact .inl ⟨b, act_eq_ok_iff.mp h, rfl⟩

/-- What an action makes of the arena is what an attempt of it leaves. -/
theorem attempt_of_carried (h : Carried a action b) :
    a.attempt action = (.applied, b.enter ⟨action, .applied⟩) := by
  rw [attempt, act_eq_ok_iff.mpr h]

/-- An applied action was carried out. -/
theorem exists_carried_of_applied (h : (a.attempt action).1 = .applied) :
    ∃ b, Carried a action b ∧ a.attempt action = (.applied, b.enter ⟨action, .applied⟩) := by
  rcases attempt_cases action a with carried | ⟨why, -, refused⟩
  · exact carried
  · rw [refused] at h
    cases h

/-- An attempt succeeds exactly if the action can be carried out. -/
theorem attempt_eq_applied_iff :
    (a.attempt action).1 = .applied ↔ ∃ b, Carried a action b := by
  constructor
  · intro h
    obtain ⟨b, carried, -⟩ := exists_carried_of_applied h
    exact ⟨b, carried⟩
  · rintro ⟨b, carried⟩
    rw [attempt_of_carried carried]

/-- **What the actions keep holds in every arena that is reached.** The journal must not matter. -/
theorem keeps_of_carried {P : Arena → Prop} (enter : ∀ (a : Arena) entry, P a → P (a.enter entry))
    (carried : ∀ {a b : Arena} {action : Action}, Carried a action b → P a → P b)
    (h : Reaches a b) (start : P a) : P b := by
  refine h.keeps ?_ start
  intro action a ha
  show P (a.attempt action).2
  rcases attempt_cases action a with ⟨b, hb, heq⟩ | ⟨why, -, heq⟩
  · rw [heq]
    exact enter b _ (carried hb ha)
  · rw [heq]
    exact enter a _ ha

end Arena

end RobotControl
