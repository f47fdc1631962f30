import RobotControl.Proofs.Arena.Aiming
import RobotControl.Proofs.Arena.Bookkeeping

/-!
Sensors foretell actions.

A sensor does not ask the action that it announces. Both read the arena in ways of their own. On
items they agree only because no pile that is listed is empty, which every action and every placement
keeps.

* `Arena.Struck.mem_others_iff`, `Arena.Struck.card_missing`: a shot removes a robot exactly if one
  can be hit.
* `Arena.WellPlaced.senses_atItem_iff`: an item is sensed exactly if it can be picked up.
* `Arena.attempt_move_of_wall`: after a turn towards a wall that was sensed, no move is carried out.
* `Arena.sensors_foretell`: all three, in every arena that was built and in which anything was done.
-/

namespace RobotControl

namespace Arena

variable {a b : Arena} {costs : Costs} {action : Action} {cell : Cell}

/-! ### Robots that can be hit -/

theorem senses_canHitRobot_iff :
    a.senses .canHitRobot ↔ ∃ cell ∈ a.others, a.firstOccupiedAhead = some cell := by
  rw [senses]
  cases h : a.firstOccupiedAhead with
  | none => simp
  | some cell => simp

/-- Of the other robots a shot leaves all but the one that is ahead. -/
theorem Struck.mem_others_iff (h : Struck a b) :
    cell ∈ b.others ↔ cell ∈ a.others ∧ a.firstOccupiedAhead ≠ some cell := by
  have stands (a : Arena) : (a.contents cell).robot ↔ cell ∈ a.others := List.contains_iff_mem
  rw [← stands b]
  by_cases ahead : a.firstOccupiedAhead = some cell
  · refine iff_of_false ?_ fun kept => kept.2 ahead
    by_cases robot : cell ∈ a.others
    · rw [h.robot cell ahead robot]
      exact Bool.false_ne_true
    · rw [h.batteries cell ahead robot]
      exact fun stood => robot ((stands a).mp stood)
  · rw [h.elsewhere cell ahead, stands a, and_iff_left ahead]

/-- **A shot removes one robot if one can be hit, and none if not.** -/
theorem Struck.card_missing (h : Struck a b) :
    (a.missing b).card = if a.senses .canHitRobot then 1 else 0 := by
  have mem_missing (cell : Cell) :
      cell ∈ a.missing b ↔ cell ∈ a.others ∧ a.firstOccupiedAhead = some cell := by
    rw [missing, Finset.mem_sdiff, List.mem_toFinset, List.mem_toFinset, h.mem_others_iff]
    tauto
  by_cases sensed : a.senses .canHitRobot
  · obtain ⟨target, robot, ahead⟩ := senses_canHitRobot_iff.mp sensed
    rw [if_pos sensed, Finset.card_eq_one]
    refine ⟨target, Finset.ext fun cell => ?_⟩
    rw [mem_missing, Finset.mem_singleton, ahead, Option.some_inj]
    constructor
    · rintro ⟨-, heq⟩
      exact heq.symm
    · rintro rfl
      exact ⟨robot, rfl⟩
  · rw [if_neg sensed, Finset.card_eq_zero, Finset.eq_empty_iff_forall_notMem]
    intro cell hcell
    obtain ⟨robot, ahead⟩ := (mem_missing cell).mp hcell
    exact sensed (senses_canHitRobot_iff.mpr ⟨cell, robot, ahead⟩)

/-! ### Items -/

/-- **An item is sensed exactly if it can be picked up.** -/
theorem WellPlaced.senses_atItem_iff (ha : a.WellPlaced) :
    a.senses .atItem ↔ (a.attempt .pickUpAndUse).1 = .applied := by
  have listed : a.senses .atItem = (a.batteries.take? a.robot.cell).isSome :=
    ha.piles.take?_isSome.symm
  rw [listed, Option.isSome_iff_exists, attempt_eq_applied_iff]
  constructor
  · rintro ⟨⟨charge, batteries⟩, taken⟩
    exact ⟨_, .pickUpAndUse taken⟩
  · rintro ⟨b, carried⟩
    cases carried with
    | pickUpAndUse taken => exact ⟨_, taken⟩

/-! ### Walls -/

theorem senses_wall_iff : a.senses .wall ↔
    ∃ cell ∈ a.walls, a.grid.neighbour a.robot.cell a.robot.facing.clockwise = some cell := by
  rw [senses]
  cases h : a.grid.neighbour a.robot.cell a.robot.facing.clockwise with
  | none => simp
  | some cell => simp

/-- **After a turn towards a wall that was sensed, no move is carried out.** -/
theorem attempt_move_of_wall (sensed : a.senses .wall)
    (turned : (a.attempt .turnClockwise).1 = .applied) :
    ((a.attempt .turnClockwise).2.attempt .move).1 ≠ .applied := by
  intro moved
  obtain ⟨wall, stands, right⟩ := senses_wall_iff.mp sensed
  obtain ⟨b, carried, heq⟩ := exists_carried_of_applied turned
  rw [heq, attempt_eq_applied_iff] at moved
  obtain ⟨c, moved⟩ := moved
  cases carried with
  | turnClockwise =>
      cases moved with
      | @move cell _ open_ahead =>
          -- The robot looks now to where the wall was sensed.
          obtain ⟨ahead, free⟩ := openAhead_eq_some_iff.mp open_ahead
          obtain rfl : wall = cell := Option.some.inj (right.symm.trans ahead)
          exact free (obstructed_iff.mpr (.inl stands))

/-! ### All sensors -/

/-- **Sensors foretell actions.** In an arena that was built and in which anything was done, a shot
that is fired removes one of the other robots if one was sensed in the line of fire and none if not.
An item is sensed exactly if picking up is carried out. A move after a turn to the right is never
carried out if a wall was sensed there. -/
theorem sensors_foretell {start : Arena} (built : Built costs start) (operated : Operated start a) :
    ((a.attempt .shoot).1 = .applied →
      (a.attempt .shoot).2.others ⊆ a.others ∧
        (a.missing (a.attempt .shoot).2).card = if a.senses .canHitRobot then 1 else 0) ∧
    (a.senses .atItem ↔ (a.attempt .pickUpAndUse).1 = .applied) ∧
    (a.senses .wall → (a.attempt .turnClockwise).1 = .applied →
      ((a.attempt .turnClockwise).2.attempt .move).1 ≠ .applied) := by
  have placed : a.WellPlaced := built.wellPlaced.reached operated.reaches
  refine ⟨?_, placed.senses_atItem_iff, attempt_move_of_wall⟩
  intro fired
  obtain ⟨b, carried, heq⟩ := exists_carried_of_applied fired
  rw [heq]
  cases carried with
  | shoot =>
      have struck := a.struck_shot_paid a.costs.shoot
      exact ⟨fun cell hcell => (struck.mem_others_iff.mp hcell).1, struck.card_missing⟩

/-- A robot ahead of this one, a wall to its right and a battery under it. -/
def corner : List Placement :=
  [.wall ⟨0, 1⟩, .robot ⟨1, 0⟩, .battery ⟨0, 0⟩ 100.0]

/-- In the corner a shot removes the robot, the battery can be picked up, and after a turn to the
right no move is carried out. -/
theorem sensors_foretell_corner :
    ∃ start a : Arena, create ⟨2, 2⟩ ⟨⟨0, 0⟩, .right, 2000.0⟩ {} = .ok start ∧
      start.placeAll corner = .ok a ∧
      a.senses .canHitRobot ∧ a.senses .atItem ∧ a.senses .wall ∧
      (a.attempt .shoot).1 = .applied ∧ (a.missing (a.attempt .shoot).2).card = 1 ∧
      (a.attempt .pickUpAndUse).1 = .applied ∧ (a.attempt .turnClockwise).1 = .applied ∧
      ((a.attempt .turnClockwise).2.attempt .move).1 ≠ .applied := by
  obtain ⟨start, a, created, placed, target, item, wall, fired, turned⟩ :
      ∃ start a : Arena, create ⟨2, 2⟩ ⟨⟨0, 0⟩, .right, 2000.0⟩ {} = .ok start ∧
        start.placeAll corner = .ok a ∧
        a.senses .canHitRobot ∧ a.senses .atItem ∧ a.senses .wall ∧
        (a.attempt .shoot).1 = .applied ∧ (a.attempt .turnClockwise).1 = .applied :=
    ⟨_, _, rfl, rfl, by decide, by decide, by decide, by decide, by decide⟩
  have built := (Built.create created).placeAll placed
  obtain ⟨fires, items, blocks⟩ := sensors_foretell built .refl
  obtain ⟨-, removed⟩ := fires fired
  rw [if_pos target] at removed
  exact ⟨start, a, created, placed, target, item, wall, fired, removed, items.mp item, turned,
    blocks wall turned⟩

end Arena

end RobotControl
