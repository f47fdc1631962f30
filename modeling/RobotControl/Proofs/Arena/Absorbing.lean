import RobotControl.Proofs.Arena.Aiming
import RobotControl.Proofs.Layout.Accepting

/-!
Shots at walls.

A shot does not look for walls: it takes away the batteries of the first occupied cell, whatever else
stands there. So a wall absorbs a shot only because no battery lies under it, and that is left to
those who place things: a battery is not placed on a wall, but a wall may be placed on a battery.

* `Arena.WallsBare`: no battery lies under a wall.
* `Arena.WallsBare.put_iff`: the only placement that breaks this is a wall on a battery.
* `Arena.BuiltBare.wallsBare`: layouts do not place walls on batteries.
* `Arena.WallsBare.carried`, `Arena.WallsBare.reached`: actions keep it.
* `Arena.wall_absorbs_shot`: what a shot at a wall changes.
* `Arena.exists_battery_shot_under_wall`: a battery under a wall is shot away.
-/

namespace RobotControl

namespace Arena

variable {a b : Arena} {costs : Costs} {p : Placement} {action : Action} {cell : Cell}

/-- No battery lies under a wall. -/
def WallsBare (a : Arena) : Prop :=
  ∀ cell ∈ a.walls, a.batteries.chargesAt cell = []

/-! ### Building -/

/-- **Only a wall that is put on a battery has a battery under it.** -/
theorem WallsBare.put_iff (admitted : a.Admits p) :
    (a.put p).WallsBare ↔ a.WallsBare ∧ ∀ cell ∈ p.walls, a.batteries.chargesAt cell = [] := by
  have apart : ∀ cell ∈ a.walls ++ p.walls, p.chargesAt cell = [] := by
    intro cell standing
    by_cases battery : p.isBattery
    · -- A battery is not placed on a wall.
      refine Placement.chargesAt_of_ne ?_
      rintro rfl
      rcases List.mem_append.mp standing with wall | wall
      · exact admitted.2.1 (obstructed_iff.mpr (.inl wall))
      · exact (Placement.obstructs_iff.mpr (.inl wall)).1 battery
    · exact Placement.chargesAt_of_not_isBattery battery cell
  rw [WallsBare, WallsBare, ← List.forall_mem_append, walls_put]
  refine forall₂_congr fun cell standing => ?_
  rw [chargesAt_put, apart cell standing, List.append_nil]

/-- The arena is built, and no wall was placed on a battery. -/
inductive BuiltBare (costs : Costs) : Arena → Prop where
  | create {grid : Grid} {robot : Robot} {a : Arena} :
      Arena.create grid robot costs = .ok a → BuiltBare costs a
  | layout {layout : Layout} {a : Arena} : layout.build costs = .ok a → BuiltBare costs a
  | place {p : Placement} {a b : Arena} : BuiltBare costs a → a.place p = .ok b →
      (∀ cell ∈ p.walls, a.batteries.chargesAt cell = []) → BuiltBare costs b

/-- A layout places no wall on a battery. -/
theorem WallsBare.layout {layout : Layout} (h : layout.build costs = .ok a) : a.WallsBare := by
  obtain ⟨well, rfl⟩ := Layout.build_eq_ok_iff.mp h
  have describes := layout.describes_arena costs
  intro cell wall
  rw [describes.walls] at wall
  rw [describes.charges, List.map_eq_nil_iff, List.filter_eq_nil_iff]
  intro battery listed here
  have free := well.batteries_free battery listed
  exact free (List.mem_append_left _ (of_decide_eq_true here ▸ wall))

theorem BuiltBare.wallsBare (h : BuiltBare costs a) : a.WallsBare := by
  induction h with
  | create h =>
      obtain ⟨-, -, -, rfl⟩ := create_eq_ok_iff.mp h
      exact List.forall_mem_nil _
  | layout h => exact .layout h
  | place _ h clear ih =>
      obtain ⟨admitted, rfl⟩ := place_eq_ok_iff_admits.mp h
      exact (WallsBare.put_iff admitted).mpr ⟨ih, clear⟩

/-! ### Acting -/

/-- **Actions leave the walls and add to no pile.** -/
theorem Carried.piles_prefix (h : Carried a action b) :
    b.walls = a.walls ∧
      ∀ cell, b.batteries.chargesAt cell <+: a.batteries.chargesAt cell := by
  cases h with
  | move _ _ => exact ⟨rfl, fun _ => List.prefix_rfl⟩
  | turnClockwise _ => exact ⟨rfl, fun _ => List.prefix_rfl⟩
  | turnCounterclockwise _ => exact ⟨rfl, fun _ => List.prefix_rfl⟩
  | shoot _ =>
      rcases shot_cases (a.paid a.costs.shoot) with ⟨-, hshot⟩ | ⟨target, -, hshot⟩
      · rw [hshot]
        exact ⟨rfl, fun _ => List.prefix_rfl⟩
      · rcases hit_cases (a.paid a.costs.shoot) target with ⟨-, hhit⟩ | ⟨-, hhit⟩
        · rw [hshot, hhit]
          exact ⟨rfl, fun _ => List.prefix_rfl⟩
        · rw [hshot, hhit]
          refine ⟨rfl, fun cell => ?_⟩
          rw [Batteries.chargesAt, Batteries.pile?_clear]
          split
          · exact List.nil_prefix
          · exact List.prefix_rfl
  | @pickUpAndUse charge left taken =>
      obtain ⟨own, others⟩ := Batteries.pile?_take taken
      refine ⟨rfl, fun cell => ?_⟩
      by_cases here : cell = a.robot.cell
      · rw [here, own]
        exact List.prefix_append _ _
      · have same : left.chargesAt cell = a.batteries.chargesAt cell :=
          congrArg (Option.getD · []) (others cell here)
        exact same ▸ List.prefix_rfl

theorem WallsBare.carried (h : Carried a action b) (ha : a.WallsBare) : b.WallsBare := by
  obtain ⟨walls, piles⟩ := h.piles_prefix
  intro cell wall
  rw [walls] at wall
  have before := piles cell
  rw [ha cell wall] at before
  exact List.prefix_nil.mp before

/-- **Whatever is done, no battery comes under a wall.** -/
theorem WallsBare.reached (ha : a.WallsBare) (h : Reaches a b) : b.WallsBare :=
  keeps_of_carried (fun _ _ ha => ha) WallsBare.carried h ha

/-! ### Shots -/

/-- What a shot at a wall leaves: the robot has paid, and what lay under the wall is gone. -/
theorem WellPlaced.shot_at_wall (ha : a.WellPlaced) (ahead : a.firstOccupiedAhead = some cell)
    (wall : cell ∈ a.walls) (cost : Float) : (a.paid cost).shot =
      { a with
        robot := { a.robot with energy := a.robot.energy - cost }
        batteries := a.batteries.clear cell } := by
  rw [shot_of_some ((a.firstOccupiedAhead_paid cost).trans ahead)]
  rcases hit_cases (a.paid cost) cell with ⟨robot, -⟩ | ⟨-, hhit⟩
  · exact absurd robot (ha.walls_apart cell wall)
  · exact hhit

/-- Clearing a cell changes something exactly if a battery lies there. -/
theorem WellPlaced.clear_eq_iff (ha : a.WellPlaced) :
    a.batteries.clear cell = a.batteries ↔ a.batteries.chargesAt cell = [] := by
  constructor
  · intro h
    rw [← h, Batteries.chargesAt, Batteries.pile?_clear, if_pos rfl]
    rfl
  · intro none
    have unlisted := mt ha.piles.holds_iff.mp (not_not_intro none)
    exact Batteries.clear_of_not_mem (mt Batteries.holds_iff_mem_cells.mpr unlisted)

/-- **A wall absorbs a shot exactly if no battery lies under it.** In an arena that was built and in
which anything was done, a shot that is fired at a wall changes the energy of the robot and the
journal, and it takes away the batteries under the wall; no robot is removed, and no other battery.
If no wall was placed on a battery, no battery ever lies under a wall, and so the shot takes away
nothing. Layouts are built in that way. -/
theorem wall_absorbs_shot {start : Arena} (built : Built costs start) (operated : Operated start a)
    (ahead : a.firstOccupiedAhead = some cell) (wall : cell ∈ a.walls)
    (fired : (a.attempt .shoot).1 = .applied) :
    (a.attempt .shoot).2 = { a with
        robot := { a.robot with energy := a.robot.energy - a.costs.shoot }
        batteries := a.batteries.clear cell
        journal := a.journal.push ⟨.shoot, .applied⟩ } ∧
      (a.batteries.clear cell = a.batteries ↔ a.batteries.chargesAt cell = []) ∧
      (BuiltBare costs start → a.WallsBare ∧ a.batteries.clear cell = a.batteries) := by
  have placed : a.WellPlaced := built.wellPlaced.reached operated.reaches
  refine ⟨?_, placed.clear_eq_iff, ?_⟩
  · obtain ⟨b, carried, heq⟩ := exists_carried_of_applied fired
    cases carried with
    | shoot _ => rw [heq, placed.shot_at_wall ahead wall, enter]
  · intro bare
    have kept := bare.wallsBare.reached operated.reaches
    exact ⟨kept, placed.clear_eq_iff.mpr (kept cell wall)⟩

/-- A wall ahead of the robot, and a battery behind the wall. -/
def butts : Layout where
  grid := ⟨3, 1⟩
  start := ⟨0, 0⟩
  facing := .right
  energy := some 2000.0
  walls := [⟨1, 0⟩]
  others := []
  batteries := [⟨⟨2, 0⟩, 100.0⟩]

/-- The wall absorbs the shot, and the battery behind it stays. -/
theorem wall_absorbs_shot_butts :
    ∃ a : Arena, butts.build {} = .ok a ∧ a.firstOccupiedAhead = some ⟨1, 0⟩ ∧ ⟨1, 0⟩ ∈ a.walls ∧
      (a.attempt .shoot).1 = .applied ∧ (a.attempt .shoot).2 = { a with
        robot := { a.robot with energy := a.robot.energy - a.costs.shoot }
        journal := a.journal.push ⟨.shoot, .applied⟩ } := by
  obtain ⟨a, built, ahead, wall, fired⟩ :
      ∃ a : Arena, butts.build {} = .ok a ∧ a.firstOccupiedAhead = some ⟨1, 0⟩ ∧
        ⟨1, 0⟩ ∈ a.walls ∧ (a.attempt .shoot).1 = .applied :=
    ⟨_, rfl, rfl, by decide, rfl⟩
  obtain ⟨left, -, bare⟩ := wall_absorbs_shot (.layout built) .refl ahead wall fired
  refine ⟨a, built, ahead, wall, fired, ?_⟩
  rw [left, (bare (.layout built)).2]

/-- **A battery under a wall is shot away.** It can be there: a wall is placed on it. -/
theorem exists_battery_shot_under_wall :
    ∃ start a b : Arena, create ⟨3, 1⟩ ⟨⟨0, 0⟩, .right, 2000.0⟩ {} = .ok start ∧
      start.placeAll [.battery ⟨1, 0⟩ 100.0, .wall ⟨1, 0⟩] = .ok a ∧ Built {} a ∧ Operated a a ∧
      a.firstOccupiedAhead = some ⟨1, 0⟩ ∧ ⟨1, 0⟩ ∈ a.walls ∧ a.attempt .shoot = (.applied, b) ∧
      a.batteries.chargesAt ⟨1, 0⟩ = [100.0] ∧ b.batteries.chargesAt ⟨1, 0⟩ = [] := by
  obtain ⟨start, a, b, created, placed, rest⟩ :
      ∃ start a b : Arena, create ⟨3, 1⟩ ⟨⟨0, 0⟩, .right, 2000.0⟩ {} = .ok start ∧
        start.placeAll [.battery ⟨1, 0⟩ 100.0, .wall ⟨1, 0⟩] = .ok a ∧
        a.firstOccupiedAhead = some ⟨1, 0⟩ ∧ ⟨1, 0⟩ ∈ a.walls ∧ a.attempt .shoot = (.applied, b) ∧
        a.batteries.chargesAt ⟨1, 0⟩ = [100.0] ∧ b.batteries.chargesAt ⟨1, 0⟩ = [] :=
    ⟨_, _, _, rfl, rfl, rfl, by decide, rfl, rfl, rfl⟩
  have built := (Built.create created).placeAll placed
  exact ⟨start, a, b, created, placed, built, .refl, rest⟩

end Arena

end RobotControl
