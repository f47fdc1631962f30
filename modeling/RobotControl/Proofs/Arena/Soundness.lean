import RobotControl.Proofs.Arena.Building
import RobotControl.Proofs.Arena.Scanning
import RobotControl.Proofs.Execution.Operating

/-!
Arenas are well placed.

Placing things checks different cells in different ways, and actions move the robot, empty cells and
take robots away. `Arena.WellPlaced` is what all of them keep; the scan ahead and the sensors are
only right because of it.

* `Arena.WellPlaced.placed`, `Arena.WellPlaced.carried`: placements and actions keep it.
* `Arena.Built.wellPlaced`: it holds in every arena that is built.
* `Arena.wellPlaced_of_operated`: it holds whatever is done to such an arena. So no coordinate is
  counted past a 32-bit word, from a listed cell a battery can be taken, and the robot senses an item
  exactly when a battery lies on its cell.
-/

namespace RobotControl

namespace Arena

/-- Everything is on the grid, the robot shares its cell with no obstacle, walls and other robots
keep apart, and the piles of batteries are sound. -/
structure WellPlaced (a : Arena) : Prop where
  robot_inside : a.grid.contains a.robot.cell
  robot_apart : a.robot.cell ∉ a.walls ∧ a.robot.cell ∉ a.others
  walls_inside : ∀ cell ∈ a.walls, a.grid.contains cell
  others_inside : ∀ cell ∈ a.others, a.grid.contains cell
  walls_apart : ∀ cell ∈ a.walls, cell ∉ a.others
  piles : a.batteries.Sound a.grid

variable {a b : Arena} {costs : Costs} {placement : Placement} {action : Action} {cell : Cell}

/-! ### Building -/

theorem WellPlaced.create {grid : Grid} {robot : Robot}
    (h : Arena.create grid robot costs = .ok a) : a.WellPlaced := by
  obtain ⟨-, -, inside, rfl⟩ := create_eq_ok_iff.mp h
  constructor
  · exact inside
  · exact ⟨List.not_mem_nil, List.not_mem_nil⟩
  · intro cell h
    cases h
  · intro cell h
    cases h
  · intro cell h
    cases h
  · exact Batteries.Sound.empty

/-- **A placement keeps an arena well placed.** -/
theorem WellPlaced.placed (h : Placed a placement b) (ha : a.WellPlaced) : b.WellPlaced := by
  cases h with
  | @wall cell inside apart free =>
      obtain ⟨nowall, norobot⟩ := not_or.mp (obstructed_iff.not.mp free)
      constructor
      · exact ha.robot_inside
      · refine ⟨fun h => ?_, ha.robot_apart.2⟩
        rcases List.mem_append.mp h with h | h
        · exact ha.robot_apart.1 h
        · exact apart (List.mem_singleton.mp h).symm
      · intro c hc
        rcases List.mem_append.mp hc with hc | hc
        · exact ha.walls_inside c hc
        · rwa [List.mem_singleton.mp hc]
      · exact ha.others_inside
      · intro c hc
        rcases List.mem_append.mp hc with hc | hc
        · exact ha.walls_apart c hc
        · rwa [List.mem_singleton.mp hc]
      · exact ha.piles
  | @robot cell inside apart free =>
      obtain ⟨nowall, norobot⟩ := not_or.mp (obstructed_iff.not.mp free)
      constructor
      · exact ha.robot_inside
      · refine ⟨ha.robot_apart.1, fun h => ?_⟩
        rcases List.mem_append.mp h with h | h
        · exact ha.robot_apart.2 h
        · exact apart (List.mem_singleton.mp h).symm
      · exact ha.walls_inside
      · intro c hc
        rcases List.mem_append.mp hc with hc | hc
        · exact ha.others_inside c hc
        · rwa [List.mem_singleton.mp hc]
      · intro c hc h
        rcases List.mem_append.mp h with h | h
        · exact ha.walls_apart c hc h
        · exact nowall (List.mem_singleton.mp h ▸ hc)
      · exact ha.piles
  | battery inside _ charge => exact { ha with piles := ha.piles.place inside charge }

/-- Every arena that is built is well placed. -/
theorem Built.wellPlaced (h : Built costs a) : a.WellPlaced :=
  h.induct WellPlaced.create WellPlaced.placed

/-! ### Acting -/

/-- An arena with fewer robots and batteries, and with the robot on the same cell. -/
theorem WellPlaced.fewer {others : List Cell} {batteries : Batteries} {robot : Robot}
    (ha : a.WellPlaced) (hothers : others ⊆ a.others) (hpiles : batteries.Sound a.grid)
    (hcell : robot.cell = a.robot.cell) :
    { a with others, batteries, robot : Arena }.WellPlaced := by
  constructor
  · exact hcell ▸ ha.robot_inside
  · exact hcell ▸ ⟨ha.robot_apart.1, fun h => ha.robot_apart.2 (hothers h)⟩
  · exact ha.walls_inside
  · exact fun c hc => ha.others_inside c (hothers hc)
  · exact fun c hc h => ha.walls_apart c hc (hothers h)
  · exact hpiles

theorem WellPlaced.paid (ha : a.WellPlaced) (cost : Float) : (a.paid cost).WellPlaced :=
  ha.fewer (fun _ h => h) ha.piles rfl

theorem WellPlaced.hit (ha : a.WellPlaced) (cell : Cell) : (a.hit cell).WellPlaced := by
  rw [Arena.hit]
  split
  · exact ha.fewer (List.filter_subset_self _) ha.piles rfl
  · exact ha.fewer (fun _ h => h) (ha.piles.clear cell) rfl

theorem WellPlaced.shot (ha : a.WellPlaced) : a.shot.WellPlaced := by
  rw [Arena.shot]
  split
  · exact ha.hit _
  · exact ha

/-- **An action keeps an arena well placed.** -/
theorem WellPlaced.carried (h : Carried a action b) (ha : a.WellPlaced) : b.WellPlaced := by
  cases h with
  | move _ open_ahead =>
      obtain ⟨next, free⟩ := openAhead_eq_some_iff.mp open_ahead
      exact { ha with
        robot_inside := Grid.contains_of_neighbour ha.robot_inside next
        robot_apart := not_or.mp (obstructed_iff.not.mp free) }
  | turnClockwise => exact ha.fewer (fun _ h => h) ha.piles rfl
  | turnCounterclockwise => exact ha.fewer (fun _ h => h) ha.piles rfl
  | shoot => exact (ha.paid _).shot
  | pickUpAndUse taken => exact ha.fewer (fun _ h => h) (ha.piles.take taken).1 rfl

theorem WellPlaced.enter (ha : a.WellPlaced) (attempt : Attempt) : (a.enter attempt).WellPlaced :=
  { ha with }

theorem WellPlaced.reached (ha : a.WellPlaced) (h : Reaches a b) : b.WellPlaced :=
  keeps_of_carried (fun _ attempt ha => ha.enter attempt) WellPlaced.carried h ha

/-! ### What follows -/

/-- The cells whose neighbours the robot asks for: its own and those that it scans. -/
def asked (a : Arena) : List Cell :=
  a.robot.cell :: a.cellsAhead

theorem WellPlaced.contains_of_mem_asked (ha : a.WellPlaced) (h : cell ∈ a.asked) :
    a.grid.contains cell := by
  rcases List.mem_cons.mp h with rfl | h
  · exact ha.robot_inside
  · exact Grid.contains_of_mem_ahead ha.robot_inside h

/-- **Whatever is done to an arena that was built, it is well placed.** No coordinate is counted past
a 32-bit word, from a listed pile on the robot's cell a battery can be taken, and an item is sensed
exactly when a battery lies on the robot's cell. -/
theorem wellPlaced_of_operated (built : Built costs a) (operated : Operated a b) :
    b.WellPlaced ∧
      (∀ cell ∈ b.asked, cell.x + 1 < UInt32.size ∧ cell.y + 1 < UInt32.size) ∧
      (∀ pile, b.batteries.pile? b.robot.cell = some pile → pile.getLast?.isSome) ∧
      (b.senses .atItem ↔ b.batteries.chargesAt b.robot.cell ≠ []) := by
  have placed : b.WellPlaced := built.wellPlaced.reached operated.reaches
  refine ⟨placed, ?_, ?_, ?_⟩
  · intro cell h
    exact Grid.succ_lt_of_contains (placed.contains_of_mem_asked h)
  · intro pile h
    exact placed.piles.getLast?_isSome h
  · exact placed.piles.holds_iff

/-- A robot between a wall and another robot, on a battery. -/
def corridor : Layout where
  grid := ⟨3, 1⟩
  start := ⟨1, 0⟩
  facing := .right
  energy := some 500.0
  walls := [⟨0, 0⟩]
  others := [⟨2, 0⟩]
  batteries := [⟨⟨1, 0⟩, 100.0⟩]

/-- The robot takes the battery, and senses no item any more. -/
theorem wellPlaced_of_operated_corridor :
    ∃ a b : Arena, corridor.build {} = .ok a ∧
      (Program.seq [.act .pickUpAndUse, .act .move]).run 1 a = some (2, b) ∧ a.senses .atItem ∧
        ¬ b.senses .atItem ∧ b.WellPlaced := by
  refine ⟨_, _, rfl, rfl, rfl, Bool.false_ne_true, ?_⟩
  have built : Built {} _ := .layout (rfl : corridor.build {} = .ok _)
  exact (wellPlaced_of_operated built (.run .refl
    (rfl : (Program.seq [.act .pickUpAndUse, .act .move]).run 1 _ = some (2, _)))).1

end Arena

end RobotControl
