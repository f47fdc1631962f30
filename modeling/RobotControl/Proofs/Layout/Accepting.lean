import RobotControl.Proofs.Arena.Placing

/-!
Which layouts are accepted.

Building an arena goes through the lists of a layout and checks each thing against the arena as it
is by then. Which layouts are accepted is said here without any arena, and so is what is reported for
the others: all checks are written down in their order, and the first that fails is reported.

* `Check.verdict`: going through checks in order.
* `Arena.create_eq_verdict`, `Arena.placeAll_eq_verdict`, `Layout.build_eq_verdict`: creating an
  arena, placing things in it and building a layout go through the checks that are written down.
* `Layout.WellFormed`, `Layout.build_eq_ok_iff`: a layout is accepted exactly if it is well-formed.
* `Layout.Describes`: what stands and lies in the arena of a layout.
* `Layout.build_accepts_wellFormed`: all of this together.
-/

namespace RobotControl

/-- Something that must hold, and what is reported if it does not. -/
structure Check where
  passes : Bool
  error : ArenaError

namespace Check

variable {α β : Type} {check : Check} {checks : List Check} {value : α} {e : ArenaError}

/-- What the first check that fails reports. -/
def fault? (checks : List Check) : Option ArenaError :=
  (checks.find? fun check => !check.passes).map (·.error)

/-- The value if all checks pass, and what the first that fails reports if not. -/
def verdict (checks : List Check) (value : α) : Except ArenaError α :=
  match fault? checks with
  | none => .ok value
  | some e => .error e

theorem verdict_nil (value : α) : verdict [] value = .ok value := rfl

theorem verdict_of_passes (h : check.passes) :
    verdict (check :: checks) value = verdict checks value := by
  simp [verdict, fault?, h]

theorem verdict_of_fails (h : ¬ check.passes) :
    verdict (check :: checks) value = .error check.error := by
  simp [verdict, fault?, h]

theorem verdict_eq_error_iff : verdict checks value = .error e ↔ fault? checks = some e := by
  rw [verdict]
  cases fault? checks <;> simp

/-- **Checks that follow others are gone through if the others pass.** -/
theorem verdict_bind (first rest : List Check) (value : α) (f : α → Except ArenaError β) (last : β)
    (h : f value = verdict rest last) : verdict first value >>= f = verdict (first ++ rest) last := by
  induction first with
  | nil => exact h
  | cons check first ih =>
      by_cases passes : check.passes
      · rw [List.cons_append, verdict_of_passes passes, verdict_of_passes passes, ih]
      · rw [List.cons_append, verdict_of_fails passes, verdict_of_fails passes]
        rfl

end Check

open Check (verdict verdict_nil verdict_of_passes verdict_of_fails verdict_bind fault?)

/-! ### The checks in their order -/

namespace Placement

/-- A battery must hold an amount of energy. -/
def chargeChecks : Placement → List Check
  | .battery cell charge => [⟨charge.isFinite && 0.0 ≤ charge, .invalidCharge cell charge⟩]
  | _ => []

/-- What is checked for a thing that is placed, where `full` says whether a wall or another robot
stands on its cell: whether the cell is on the grid, whether it is free, and whether a charge is one.
Only a battery can be placed on the controlled robot. -/
def checks (grid : Grid) (robot : Cell) (full : Bool) (p : Placement) : List Check :=
  [⟨grid.contains p.cell, .outOfBounds p.cell grid⟩,
    ⟨(p.isBattery || p.cell ≠ robot) && !full, .occupied p.cell⟩] ++ p.chargeChecks

/-- What is checked for things that are placed one after another, and after those in `before`. -/
def checksInOrder (grid : Grid) (robot : Cell) : (before ps : List Placement) → List Check
  | _, [] => []
  | before, p :: ps =>
    p.checks grid robot (∃ q ∈ before, q.Obstructs p.cell) ++
      checksInOrder grid robot (before ++ [p]) ps

end Placement

/-- What is checked for the grid and the controlled robot. -/
def Robot.checks (grid : Grid) (costs : Costs) (robot : Robot) : List Check :=
  [⟨0 < grid.width && 0 < grid.height, .emptyGrid grid⟩,
    ⟨0.0 ≤ robot.energy && robot.energy ≤ costs.capacity,
      .invalidEnergy robot.energy costs.capacity⟩,
    ⟨grid.contains robot.cell, .outOfBounds robot.cell grid⟩]

/-- All that is checked for a layout: first the grid, the energy of the robot and its place, then the
walls, the other robots and the batteries, in the order of their lists. -/
def Layout.checks (l : Layout) (costs : Costs) : List Check :=
  Robot.checks l.grid costs ⟨l.start, l.facing, l.energy.getD costs.capacity⟩ ++
    Placement.checksInOrder l.grid l.start []
      (l.walls.map .wall ++ l.others.map .robot ++ l.batteries.map fun b => .battery b.cell b.charge)

namespace Arena

variable {a b : Arena} {p : Placement} {ps before : List Placement} {cell : Cell}

/-- An empty grid with the robot on it. -/
def empty (grid : Grid) (robot : Robot) (costs : Costs) : Arena :=
  ⟨grid, [], [], .empty, robot, costs, #[]⟩

/-- On an empty grid nothing stands in the way. -/
theorem admits_empty_iff {grid : Grid} {robot : Robot} {costs : Costs} :
    (empty grid robot costs).Admits p ↔ grid.contains p.cell ∧ p.Fits robot.cell := by
  constructor
  · rintro ⟨inside, -, fits⟩
    exact ⟨inside, fits⟩
  · rintro ⟨inside, fits⟩
    exact ⟨inside, Bool.false_ne_true, fits⟩

theorem checkBounds_eq_verdict (grid : Grid) (cell : Cell) :
    checkBounds grid cell = verdict [⟨grid.contains cell, .outOfBounds cell grid⟩] () := by
  rw [checkBounds]
  by_cases inside : grid.contains cell
  · rw [if_pos inside, verdict_of_passes inside, verdict_nil]
  · rw [if_neg inside, verdict_of_fails inside]

theorem sizes_iff {grid : Grid} :
    (0 < grid.width && 0 < grid.height) = true ↔ ¬ (grid.width = 0 ∨ grid.height = 0) := by
  simp [UInt32.pos_iff_ne_zero]

/-- **Creating an arena goes through the checks for the grid and the robot.** -/
theorem create_eq_verdict (grid : Grid) (robot : Robot) (costs : Costs) :
    create grid robot costs = verdict (robot.checks grid costs) (empty grid robot costs) := by
  rw [create, Robot.checks]
  by_cases sizes : grid.width = 0 ∨ grid.height = 0
  · have fails := mt sizes_iff.mp (not_not_intro sizes)
    rw [if_pos sizes, verdict_of_fails fails]
  · rw [if_neg sizes, verdict_of_passes (sizes_iff.mpr sizes)]
    by_cases energy : 0.0 ≤ robot.energy ∧ robot.energy ≤ costs.capacity
    · rw [if_neg (not_not_intro energy), verdict_of_passes (by simpa using energy),
        checkBounds_eq_verdict]
      exact verdict_bind _ [] () _ _ rfl
    · rw [if_pos energy, verdict_of_fails (by simpa using energy)]

theorem checkFree_eq_verdict (a : Arena) (cell : Cell) :
    a.checkFree cell = verdict [⟨a.grid.contains cell, .outOfBounds cell a.grid⟩,
      ⟨cell ≠ a.robot.cell && !a.obstructed cell, .occupied cell⟩] () := by
  rw [checkFree, checkBounds_eq_verdict]
  refine verdict_bind [_] [_] () _ () ?_
  by_cases full : cell = a.robot.cell ∨ a.obstructed cell
  · have fails : ¬ (cell ≠ a.robot.cell && !a.obstructed cell) := by
      simp only [Bool.and_eq_true, decide_eq_true_eq, Bool.not_eq_true']
      rintro ⟨apart, free⟩
      simp [apart, free] at full
    rw [if_pos full, verdict_of_fails fails]
  · have passes : cell ≠ a.robot.cell && !a.obstructed cell := by simpa using full
    rw [if_neg full, verdict_of_passes passes]
    rfl

theorem checkBattery_eq_verdict (a : Arena) (cell : Cell) (charge : Float) :
    a.checkBattery cell charge = verdict [⟨a.grid.contains cell, .outOfBounds cell a.grid⟩,
      ⟨!a.obstructed cell, .occupied cell⟩,
      ⟨charge.isFinite && 0.0 ≤ charge, .invalidCharge cell charge⟩] () := by
  rw [checkBattery, checkBounds_eq_verdict]
  refine verdict_bind [_] [_, _] () _ () ?_
  by_cases full : a.obstructed cell
  · rw [if_pos full, verdict_of_fails (by simp [full])]
  · rw [if_neg full, verdict_of_passes (by simpa using full)]
    by_cases amount : Energy.isAmount charge
    · have passes := Energy.isAmount_iff.mp amount
      rw [if_neg (not_not_intro amount), verdict_of_passes (by simpa using passes)]
      rfl
    · have fails := mt Energy.isAmount_iff.mpr amount
      rw [if_pos amount, verdict_of_fails (by simpa using fails)]

/-- **A placement goes through the checks for the thing that is placed.** -/
theorem place_eq_verdict (a : Arena) (p : Placement) :
    a.place p =
      verdict (p.checks a.grid a.robot.cell (a.obstructed p.cell)) (a.put p) := by
  cases p with
  | wall cell =>
      rw [place, checkFree_eq_verdict]
      exact verdict_bind _ [] () _ _ rfl
  | robot cell =>
      rw [place, checkFree_eq_verdict]
      exact verdict_bind _ [] () _ _ rfl
  | battery cell charge =>
      rw [place, checkBattery_eq_verdict]
      exact verdict_bind _ [] () _ _ rfl

/-- Where nothing stood before, the things that were placed say what is free. -/
theorem obstructed_putAll (free : ∀ cell, ¬ a.obstructed cell) (ps : List Placement)
    (cell : Cell) : (a.putAll ps).obstructed cell = decide (∃ p ∈ ps, p.Obstructs cell) := by
  rw [Bool.eq_iff_iff, obstructed_putAll_iff, decide_eq_true_iff, or_iff_right (free cell)]

/-- **Placements go through the checks that are written down for them.** -/
theorem placeAll_eq_verdict (free : ∀ cell, ¬ a.obstructed cell) (before ps : List Placement) :
    (a.putAll before).placeAll ps =
      verdict (Placement.checksInOrder a.grid a.robot.cell before ps)
        (a.putAll (before ++ ps)) := by
  induction ps generalizing before with
  | nil =>
      rw [List.append_nil]
      rfl
  | cons p ps ih =>
      have rest := ih (before ++ [p])
      rw [putAll_concat, ← List.append_cons] at rest
      rw [placeAll, List.foldlM_cons, place_eq_verdict, grid_putAll, robot_putAll,
        obstructed_putAll free]
      exact verdict_bind _ _ _ _ _ rest

end Arena

namespace Layout

variable {l : Layout} {costs : Costs} {a : Arena}

/-! ### Well-formed layouts -/

/-- The layout makes sense, whatever the order in which its things are placed: the grid has a cell,
the robot can store its energy, and it is on the grid; the walls and the other robots are on cells of
the grid, no two of them on one, and none with the robot; the batteries are on cells of the grid with
no wall and no other robot, and they hold amounts of energy. -/
structure WellFormed (l : Layout) (costs : Costs) : Prop where
  sizes : 0 < l.grid.width ∧ 0 < l.grid.height
  energy : 0.0 ≤ l.energy.getD costs.capacity ∧ l.energy.getD costs.capacity ≤ costs.capacity
  start_inside : l.grid.contains l.start
  obstacles_inside : ∀ cell ∈ l.walls ++ l.others, l.grid.contains cell
  obstacles_apart : (l.walls ++ l.others).Nodup
  start_free : l.start ∉ l.walls ++ l.others
  batteries_inside : ∀ b ∈ l.batteries, l.grid.contains b.cell
  batteries_free : ∀ b ∈ l.batteries, b.cell ∉ l.walls ++ l.others
  charges : ∀ b ∈ l.batteries, b.charge.isFinite ∧ 0.0 ≤ b.charge

/-- The arena holds what the layout lists, and nothing has happened in it. -/
structure Describes (l : Layout) (costs : Costs) (a : Arena) : Prop where
  robot : a.robot = ⟨l.start, l.facing, l.energy.getD costs.capacity⟩
  walls : a.walls = l.walls
  others : a.others = l.others
  charges : ∀ cell, a.batteries.chargesAt cell =
    (l.batteries.filter fun b => b.cell = cell).map fun b => b.charge
  rest : a.grid = l.grid ∧ a.costs = costs ∧ a.journal = #[]

/-- The arena of a layout. -/
def arena (l : Layout) (costs : Costs) : Arena :=
  (Arena.empty l.grid (l.robot costs) costs).putAll l.placements

/-- **Building a layout goes through the checks that are written down for it.** -/
theorem build_eq_verdict (l : Layout) (costs : Costs) :
    l.build costs = verdict (l.checks costs) (l.arena costs) := by
  rw [build, Arena.create_eq_verdict]
  have free (cell : Cell) : ¬ (Arena.empty l.grid (l.robot costs) costs).obstructed cell :=
    Bool.false_ne_true
  exact verdict_bind _ _ _ _ _ (Arena.placeAll_eq_verdict free [] l.placements)

theorem flatMap_placements {α : Type} (l : Layout) (f : Placement → List α) :
    l.placements.flatMap f = l.walls.flatMap (fun cell => f (.wall cell)) ++
      l.others.flatMap (fun cell => f (.robot cell)) ++
        l.batteries.flatMap fun b => f (.battery b.cell b.charge) := by
  simp only [placements, List.flatMap_append, List.flatMap_map]

theorem flatMap_charges (batteries : List Battery) (cell : Cell) :
    (batteries.flatMap fun b => if b.cell = cell then [b.charge] else []) =
      (batteries.filter fun b => b.cell = cell).map fun b => b.charge := by
  induction batteries with
  | nil => rfl
  | cons b rest ih =>
      rw [List.flatMap_cons, ih, List.filter_cons]
      by_cases here : b.cell = cell <;> simp [here]

/-- **The arena of a layout holds what the layout lists.** -/
theorem describes_arena (l : Layout) (costs : Costs) : l.Describes costs (l.arena costs) := by
  have nothing {α β : Type} (xs : List α) : xs.flatMap (fun _ => ([] : List β)) = [] :=
    List.flatMap_eq_nil_iff.mpr fun _ _ => rfl
  constructor
  · exact Arena.robot_putAll _ _
  · rw [arena, Arena.walls_putAll, flatMap_placements]
    simp [Arena.empty, Placement.walls, nothing]
  · rw [arena, Arena.others_putAll, flatMap_placements]
    simp [Arena.empty, Placement.others, nothing]
  · intro cell
    rw [arena, Arena.chargesAt_putAll, flatMap_placements]
    simp only [Placement.chargesAt, nothing, flatMap_charges]
    rfl
  · have bare := (Arena.empty l.grid (l.robot costs) costs).bare_putAll l.placements
    exact ⟨congrArg Arena.grid bare, congrArg Arena.costs bare, congrArg Arena.journal bare⟩

theorem forall_mem_placements {P : Placement → Prop} : (∀ p ∈ l.placements, P p) ↔
    (∀ cell ∈ l.walls, P (.wall cell)) ∧ (∀ cell ∈ l.others, P (.robot cell)) ∧
      ∀ b ∈ l.batteries, P (.battery b.cell b.charge) := by
  simp only [placements, List.forall_mem_append, List.forall_mem_map, and_assoc]

/-- The walls and the other robots, in placing order. -/
def obstacles (l : Layout) : List Placement :=
  l.walls.map .wall ++ l.others.map .robot

theorem obstacles_obstruct_iff {cell : Cell} :
    (∃ p ∈ l.obstacles, p.Obstructs cell) ↔ cell ∈ l.walls ++ l.others := by
  simp [obstacles, or_and_right, exists_or]

theorem pairwise_obstacles :
    l.obstacles.Pairwise (fun p q => ¬ p.Obstructs q.cell) ↔ (l.walls ++ l.others).Nodup := by
  simp [obstacles, List.pairwise_append, List.pairwise_map, List.Nodup, Placement.cell]

/-- **Nothing is kept away by what is listed before it exactly if walls and robots are on different
cells and batteries on none of them.** -/
theorem pairwise_placements : l.placements.Pairwise (fun p q => ¬ p.Obstructs q.cell) ↔
    (l.walls ++ l.others).Nodup ∧ ∀ b ∈ l.batteries, b.cell ∉ l.walls ++ l.others := by
  rw [placements, List.pairwise_append, List.pairwise_map]
  constructor
  · rintro ⟨apart, -, free⟩
    refine ⟨pairwise_obstacles.mp apart, ?_⟩
    intro b hb taken
    obtain ⟨p, hp, obstructs⟩ := obstacles_obstruct_iff.mpr taken
    exact free p hp _ (List.mem_map_of_mem hb) obstructs
  · rintro ⟨apart, free⟩
    refine ⟨pairwise_obstacles.mpr apart, ?_, ?_⟩
    · exact List.pairwise_of_forall fun _ _ => Placement.not_obstructs_battery
    · intro p hp q hq obstructs
      obtain ⟨b, hb, rfl⟩ := List.mem_map.mp hq
      exact free b hb (obstacles_obstruct_iff.mp ⟨p, hp, obstructs⟩)

/-- Each thing of the layout could be placed by itself exactly if the walls and the other robots are
on the grid and not on the controlled robot, and the batteries are on the grid and hold amounts of
energy. -/
theorem forall_admits_iff :
    (∀ p ∈ l.placements, (Arena.empty l.grid (l.robot costs) costs).Admits p) ↔
      (∀ cell ∈ l.walls ++ l.others, l.grid.contains cell ∧ cell ≠ l.start) ∧
        ∀ b ∈ l.batteries, l.grid.contains b.cell ∧ b.charge.isFinite ∧ 0.0 ≤ b.charge := by
  simp only [forall_mem_placements, List.forall_mem_append, Arena.admits_empty_iff, and_assoc]
  rfl

/-- **A layout is accepted exactly if it is well-formed.** -/
theorem build_eq_ok_iff : l.build costs = .ok a ↔ l.WellFormed costs ∧ a = l.arena costs := by
  constructor
  · intro h
    obtain ⟨bare, created, placed⟩ := bind_eq_ok_iff.mp h
    obtain ⟨sizes, energy, inside, rfl⟩ := Arena.create_eq_ok_iff.mp created
    obtain ⟨each, apart, rfl⟩ := Arena.placeAll_eq_ok_iff.mp placed
    obtain ⟨obstacles, batteries⟩ := forall_admits_iff.mp each
    obtain ⟨distinct, free⟩ := pairwise_placements.mp apart
    refine ⟨?_, rfl⟩
    constructor
    · simpa [UInt32.pos_iff_ne_zero] using sizes
    · exact energy
    · exact inside
    · exact fun cell h => (obstacles cell h).1
    · exact distinct
    · exact fun taken => (obstacles l.start taken).2 rfl
    · exact fun b hb => (batteries b hb).1
    · exact free
    · exact fun b hb => (batteries b hb).2
  · rintro ⟨well, rfl⟩
    have sizes : ¬ (l.grid.width = 0 ∨ l.grid.height = 0) := by
      simpa [UInt32.pos_iff_ne_zero] using well.sizes
    have created : Arena.create l.grid (l.robot costs) costs = .ok _ :=
      Arena.create_eq_ok_iff.mpr ⟨sizes, well.energy, well.start_inside, rfl⟩
    have each : ∀ p ∈ l.placements, (Arena.empty l.grid (l.robot costs) costs).Admits p := by
      refine forall_admits_iff.mpr ⟨?_, ?_⟩
      · intro cell h
        exact ⟨well.obstacles_inside cell h, fun heq => well.start_free (heq ▸ h)⟩
      · intro b hb
        exact ⟨well.batteries_inside b hb, well.charges b hb⟩
    have apart := pairwise_placements.mpr ⟨well.obstacles_apart, well.batteries_free⟩
    exact bind_eq_ok_iff.mpr ⟨_, created, Arena.placeAll_eq_ok_iff.mpr ⟨each, apart, rfl⟩⟩

/-- **Exactly the well-formed layouts are accepted, and the arena holds what they list.** For any
layout and any costs, the arena is built if and only if the layout is well-formed; then its walls and
robots are those that are listed, the batteries of each cell are those that are listed for it in their
order, the robot is as listed, and the journal is empty. What is reported for another layout is
what the first of its checks that fails reports. -/
theorem build_accepts_wellFormed (l : Layout) (costs : Costs) :
    ((∃ a, l.build costs = .ok a) ↔ l.WellFormed costs) ∧
      (∀ a, l.build costs = .ok a → l.Describes costs a) ∧
      ∀ e, l.build costs = .error e ↔ fault? (l.checks costs) = some e := by
  refine ⟨?_, ?_, ?_⟩
  · simp only [build_eq_ok_iff, exists_and_left, exists_eq, and_true]
  · intro a h
    obtain ⟨-, rfl⟩ := build_eq_ok_iff.mp h
    exact l.describes_arena costs
  · intro e
    rw [build_eq_verdict, Check.verdict_eq_error_iff]

/-- Three batteries, two of them on one cell and one under the robot. -/
def depot : Layout where
  grid := ⟨3, 2⟩
  start := ⟨0, 0⟩
  facing := .right
  energy := none
  walls := [⟨1, 1⟩]
  others := [⟨2, 0⟩]
  batteries := [⟨⟨1, 0⟩, 100.0⟩, ⟨⟨0, 0⟩, 50.0⟩, ⟨⟨1, 0⟩, 200.0⟩]

/-- The depot is built as it is listed. With a second wall on the robot and another robot off the
grid, the wall is reported. -/
theorem build_accepts_depot :
    depot.WellFormed {} ∧ (∃ a, depot.build {} = .ok a ∧ a.robot.energy = 20000.0 ∧
        a.batteries.chargesAt ⟨1, 0⟩ = [100.0, 200.0]) ∧
      { depot with walls := [⟨1, 1⟩, ⟨0, 0⟩], others := [⟨5, 5⟩] }.build {} =
        .error (.occupied ⟨0, 0⟩) := by
  obtain ⟨a, built⟩ : ∃ a, depot.build {} = .ok a := ⟨_, rfl⟩
  obtain ⟨accepted, described, -⟩ := build_accepts_wellFormed depot {}
  have describes := described a built
  refine ⟨accepted.mp ⟨a, built⟩, ⟨a, built, ?_, ?_⟩, ?_⟩
  · rw [describes.robot]
    rfl
  · rw [describes.charges]
    rfl
  · exact ((build_accepts_wellFormed _ {}).2.2 _).mpr rfl

end Layout

end RobotControl
