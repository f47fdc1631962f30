import RobotControl.Proofs.Arena.Soundness

/-!
Actions are atomic.

An action checks, pays and changes the arena in an order of its own. Nothing of this can be seen from
outside: an action that is refused has changed nothing, and one that is carried out has changed what
it is there to change and nothing else.

* `Arena.Confined`: what an action may change.
* `Arena.Carried.confined`: an action that is carried out changes no more than that.
* `Arena.attempt_atomic`: every attempt is entered in the journal, and beyond that a refused one
  leaves the arena as it was and an applied one keeps to its confines.

A shot needs an arena that is well placed, because only there the cells ahead are none but others.
-/

namespace RobotControl

namespace Arena

variable {a b : Arena} {costs : Costs} {action : Action} {cell : Cell}

/-- What changes when an action is carried out: a move changes the cell of the robot and its energy,
a turn its facing and its energy, a shot its energy and what is on at most one other cell, and picking
up changes its energy and takes the battery that was placed last on its own cell. -/
def Confined (a b : Arena) : Action → Prop
  | .move => ∃ cell energy, b = { a with robot := { a.robot with cell, energy } } ∧
      a.grid.neighbour a.robot.cell a.robot.facing = some cell ∧ a.grid.contains cell ∧
        cell ∉ a.walls ∧ cell ∉ a.others
  | .turnClockwise => ∃ energy,
      b = { a with robot := { a.robot with facing := a.robot.facing.clockwise, energy } }
  | .turnCounterclockwise => ∃ energy,
      b = { a with robot := { a.robot with facing := a.robot.facing.counterclockwise, energy } }
  | .shoot => ∃ energy others batteries,
      b = { a with others, batteries, robot := { a.robot with energy } } ∧
        ((others = a.others ∧ batteries = a.batteries) ∨
          ∃ target, target ≠ a.robot.cell ∧ a.grid.contains target ∧
            ∀ cell, cell ≠ target → (cell ∈ others ↔ cell ∈ a.others) ∧
              batteries.pile? cell = a.batteries.pile? cell)
  | .pickUpAndUse => ∃ energy batteries charge,
      b = { a with batteries, robot := { a.robot with energy } } ∧
        a.batteries.chargesAt a.robot.cell = batteries.chargesAt a.robot.cell ++ [charge] ∧
          ∀ cell, cell ≠ a.robot.cell → batteries.pile? cell = a.batteries.pile? cell

/-- No action changes the grid, the walls, the costs or what is in the journal already. -/
theorem Confined.kept (h : Confined a b action) :
    b.grid = a.grid ∧ b.walls = a.walls ∧ b.costs = a.costs ∧ b.journal = a.journal := by
  cases action with
  | move =>
      obtain ⟨cell, energy, rfl, -⟩ := h
      exact ⟨rfl, rfl, rfl, rfl⟩
  | turnClockwise =>
      obtain ⟨energy, rfl⟩ := h
      exact ⟨rfl, rfl, rfl, rfl⟩
  | turnCounterclockwise =>
      obtain ⟨energy, rfl⟩ := h
      exact ⟨rfl, rfl, rfl, rfl⟩
  | shoot =>
      obtain ⟨energy, others, batteries, rfl, -⟩ := h
      exact ⟨rfl, rfl, rfl, rfl⟩
  | pickUpAndUse =>
      obtain ⟨energy, batteries, charge, rfl, -⟩ := h
      exact ⟨rfl, rfl, rfl, rfl⟩

/-! ### Shots -/

/-- What the robot can hit is on the grid and not on its own cell. -/
theorem WellPlaced.target_apart (ha : a.WellPlaced) (h : a.firstOccupiedAhead = some cell) :
    cell ≠ a.robot.cell ∧ a.grid.contains cell := by
  have hahead := mem_cellsAhead_of_firstOccupiedAhead h
  exact ⟨Grid.ne_of_mem_ahead ha.robot_inside hahead,
    Grid.contains_of_mem_ahead ha.robot_inside hahead⟩

/-! ### Actions -/

/-- **A shot changes the energy of the robot and what is on at most one other cell.** -/
theorem WellPlaced.shot_confined (ha : a.WellPlaced) (cost : Float) :
    Confined a (a.paid cost).shot .shoot := by
  rcases shot_cases (a.paid cost) with ⟨-, hshot⟩ | ⟨target, ahead, hshot⟩
  · exact ⟨_, _, _, hshot, .inl ⟨rfl, rfl⟩⟩
  · obtain ⟨apart, inside⟩ := (ha.paid cost).target_apart ahead
    rcases hit_cases (a.paid cost) target with ⟨-, hhit⟩ | ⟨-, hhit⟩
    · refine ⟨_, _, _, hshot.trans hhit, .inr ⟨target, apart, inside, ?_⟩⟩
      intro cell hcell
      refine ⟨?_, rfl⟩
      simp [hcell, Arena.paid]
    · refine ⟨_, _, _, hshot.trans hhit, .inr ⟨target, apart, inside, ?_⟩⟩
      intro cell hcell
      exact ⟨Iff.rfl, (Batteries.pile?_clear _ _ _).trans (if_neg hcell)⟩

/-- **An action that is carried out keeps to its confines.** -/
theorem Carried.confined (h : Carried a action b) (ha : a.WellPlaced) : Confined a b action := by
  cases h with
  | move _ open_ahead =>
      obtain ⟨next, free⟩ := openAhead_eq_some_iff.mp open_ahead
      obtain ⟨nowall, norobot⟩ := not_or.mp (obstructed_iff.not.mp free)
      exact ⟨_, _, rfl, next, Grid.contains_of_neighbour ha.robot_inside next, nowall, norobot⟩
  | turnClockwise => exact ⟨_, rfl⟩
  | turnCounterclockwise => exact ⟨_, rfl⟩
  | shoot => exact ha.shot_confined a.costs.shoot
  | @pickUpAndUse charge batteries taken =>
      obtain ⟨own, others⟩ := Batteries.pile?_take taken
      exact ⟨_, batteries, charge, rfl, own, others⟩

/-- Too little energy refuses a move, whatever is ahead. -/
theorem attempt_move_of_lt (h : a.robot.energy < a.costs.move) :
    (a.attempt .move).1 = .refused .insufficientEnergy := by
  have refused : a.act .move = .error .insufficientEnergy := if_pos h
  rw [attempt, refused]

/-- **Actions are atomic.** In an arena that was built and in which anything was done, a refused
action leaves everything but one entry in the journal, and an applied one changes beside its entry
only what it is there to change. A move with too little energy is refused for that reason, also where
it is blocked. -/
theorem attempt_atomic {start : Arena} (built : Built costs start) (operated : Operated start a)
    (action : Action) :
    (∀ why, (a.attempt action).1 = .refused why →
        (a.attempt action).2 = { a with journal := a.journal.push ⟨action, .refused why⟩ }) ∧
      ((a.attempt action).1 = .applied → ∃ b, Confined a b action ∧
        (a.attempt action).2 = { b with journal := a.journal.push ⟨action, .applied⟩ }) ∧
      (a.robot.energy < a.costs.move →
        (a.attempt .move).1 = .refused .insufficientEnergy) := by
  have placed : a.WellPlaced := built.wellPlaced.reached operated.reaches
  refine ⟨?_, ?_, attempt_move_of_lt⟩
  · intro why refused
    rcases attempt_cases action a with ⟨b, -, heq⟩ | ⟨reason, -, heq⟩
    · rw [heq] at refused
      cases refused
    · rw [heq] at refused ⊢
      cases refused
      rfl
  · intro applied
    rcases attempt_cases action a with ⟨b, carried, heq⟩ | ⟨reason, -, heq⟩
    · have confined := carried.confined placed
      refine ⟨b, confined, ?_⟩
      rw [heq, enter, confined.kept.2.2.2]
    · rw [heq] at applied
      cases applied

/-- The robot in the corridor takes the battery under it, is refused a move onto the other robot, and
shoots it. -/
theorem attempt_atomic_corridor :
    ∃ start a : Arena, corridor.build { shoot := 500.0 } = .ok start ∧
      (Program.act .pickUpAndUse).run 1 start = some (1, a) ∧
      (a.attempt .move).1 = .refused .blocked ∧ (a.attempt .shoot).1 = .applied ∧
      (a.attempt .move).2 =
        { a with journal := a.journal.push ⟨.move, .refused .blocked⟩ } ∧
      ∃ b, Confined a b .shoot ∧
        (a.attempt .shoot).2 = { b with journal := a.journal.push ⟨.shoot, .applied⟩ } := by
  refine ⟨_, _, rfl, rfl, rfl, rfl, ?_⟩
  have built : Built { shoot := 500.0 } _ := .layout (rfl : corridor.build { shoot := 500.0 } = .ok _)
  have atomic := attempt_atomic built (.run .refl
    (rfl : (Program.act .pickUpAndUse).run 1 _ = some (1, _)))
  exact ⟨(atomic .move).1 .blocked rfl, (atomic .shoot).2.1 rfl⟩

end Arena

end RobotControl
