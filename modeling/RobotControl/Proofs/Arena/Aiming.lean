import RobotControl.Proofs.Arena.Atomicity

/-!
What a shot hits.

The robot looks along one row or column, cell after cell. What it finds is said here without the way
it is found: by the distance of a cell, and by what stands or lies on it.

* `Cell.Ahead`: a cell lies straight ahead of another one, at a distance.
* `Arena.Scanned`, `Arena.scanned_iff`: looking at cell after cell comes to an end, and where.
* `Arena.Nearest`: the nearest cell straight ahead with a wall, a robot or a battery.
* `Arena.WellPlaced.firstOccupiedAhead_eq_some_iff`: this is the first occupied cell ahead.
* `Arena.Struck`, `Arena.struck_shot_paid`: a shot changes what is on that cell and on no other.
* `Arena.shot_hits_nearest`: all of it, whatever was done in an arena that was built.
-/

namespace RobotControl

/-! ### Cells straight ahead -/

/-- The cell lies straight ahead of `c`, so many cells away. -/
def Cell.Ahead (c : Cell) (facing : Facing) (distance : Nat) (target : Cell) : Prop :=
  match facing with
  | .up => target.x = c.x ∧ target.y + distance = c.y
  | .right => target.x = c.x + distance ∧ target.y = c.y
  | .down => target.x = c.x ∧ target.y = c.y + distance
  | .left => target.x + distance = c.x ∧ target.y = c.y

theorem Cell.Ahead.unique {c d e : Cell} {facing : Facing} {distance : Nat}
    (hd : c.Ahead facing distance d) (he : c.Ahead facing distance e) : d = e := by
  obtain ⟨dx, dy⟩ := d
  obtain ⟨ex, ey⟩ := e
  cases facing <;> simp only [Cell.Ahead] at hd he <;> rw [Cell.mk.injEq] <;> omega

namespace Grid

variable {g : Grid} {c d target : Cell} {facing : Facing} {distance cells : Nat}

theorem neighbour_eq_some_iff (hc : g.contains c) :
    g.neighbour c facing = some d ↔ c.Ahead facing 1 d ∧ g.contains d := by
  obtain ⟨dx, dy⟩ := d
  rw [contains_iff] at hc ⊢
  cases facing <;> simp only [neighbour, Cell.Ahead, Option.ite_none_left_eq_some,
    Option.ite_none_right_eq_some, Option.some.injEq, Cell.mk.injEq] <;> omega

/-- What lies ahead of a cell lies one cell less ahead of its neighbour. -/
theorem ahead_of_neighbour (h : g.neighbour c facing = some d) :
    c.Ahead facing (distance + 1) target ↔ d.Ahead facing distance target := by
  cases facing <;> simp only [neighbour, Option.ite_none_left_eq_some,
    Option.ite_none_right_eq_some, Option.some.injEq] at h <;> obtain ⟨hn, rfl⟩ := h <;>
    simp only [Cell.Ahead] <;> omega

/-- A cell on the grid is at most as far ahead as the edge. -/
theorem le_reach_of_ahead (hc : g.contains c) (ht : g.contains target)
    (h : c.Ahead facing distance target) : distance ≤ g.reach c facing := by
  rw [contains_iff] at hc ht
  cases facing <;> simp only [Cell.Ahead] at h <;> simp only [reach] <;> omega

/-- **The cells that a scan looks at are those straight ahead**, in the order of their distances. -/
theorem getElem?_ahead (hc : g.contains c) :
    (g.ahead facing cells c)[distance]? = some target ↔
      distance < cells ∧ c.Ahead facing (distance + 1) target ∧ g.contains target := by
  induction cells generalizing c distance with
  | zero => simp [ahead]
  | succ cells ih =>
      rcases reach_of_neighbour facing hc with ⟨hn, hr⟩ | ⟨next, hn, -⟩
      · rw [ahead_of_none hn]
        refine iff_of_false (by simp) ?_
        rintro ⟨-, hahead, inside⟩
        have near := le_reach_of_ahead hc inside hahead
        omega
      · rw [ahead_of_some hn]
        cases distance with
        | zero =>
            rw [List.getElem?_cons_zero, ← hn, neighbour_eq_some_iff hc]
            exact (and_iff_right cells.succ_pos).symm
        | succ distance =>
            rw [List.getElem?_cons_succ, ih (contains_of_neighbour hc hn), ahead_of_neighbour hn,
              Nat.add_lt_add_iff_right]

end Grid

namespace Arena

variable {a b : Arena} {costs : Costs} {c cell target : Cell} {facing : Facing}
  {distance cells : Nat} {answer : Option Cell}

/-! ### Scanning -/

/-- Looking at cell after cell comes to an answer: the first occupied cell, or none where the grid
ends. The number of cells is not bounded beforehand. -/
inductive Scanned (a : Arena) (facing : Facing) : Cell → Option Cell → Prop where
  | edge {c : Cell} : a.grid.neighbour c facing = none → Scanned a facing c none
  | found {c next : Cell} : a.grid.neighbour c facing = some next → a.occupied next →
      Scanned a facing c (some next)
  | further {c next : Cell} {answer : Option Cell} : a.grid.neighbour c facing = some next →
      ¬ a.occupied next → Scanned a facing next answer → Scanned a facing c answer

/-- At the edge a scan comes to an end without an answer. -/
theorem scanned_iff_of_none (edge : a.grid.neighbour c facing = none) :
    Scanned a facing c answer ↔ answer = none := by
  constructor
  · intro h
    cases h with
    | edge => rfl
    | found hn => cases edge.symm.trans hn
    | further hn => cases edge.symm.trans hn
  · rintro rfl
    exact .edge edge

/-- Before the edge a scan comes to an end on an occupied cell, and passes over one that is free. -/
theorem scanned_iff_of_some (next : a.grid.neighbour c facing = some target) :
    Scanned a facing c answer ↔
      (a.occupied target ∧ answer = some target) ∨
        (¬ a.occupied target ∧ Scanned a facing target answer) := by
  constructor
  · intro h
    cases h with
    | edge hn => cases next.symm.trans hn
    | found hn full =>
        cases next.symm.trans hn
        exact .inl ⟨full, rfl⟩
    | further hn free rest =>
        cases next.symm.trans hn
        exact .inr ⟨free, rest⟩
  · rintro (⟨full, rfl⟩ | ⟨free, rest⟩)
    · exact .found next full
    · exact .further next free rest

/-- A scan comes to one answer, because each step takes it nearer to the edge. -/
theorem scanned_iff_firstOccupiedFrom (hc : a.grid.contains c)
    (h : a.grid.reach c facing ≤ cells) :
    Scanned a facing c answer ↔ answer = a.firstOccupiedFrom facing cells c := by
  induction cells generalizing c with
  | zero =>
      rcases Grid.reach_of_neighbour facing hc with ⟨hn, -⟩ | ⟨next, -, hr⟩
      · exact scanned_iff_of_none hn
      · omega
  | succ cells ih =>
      rcases Grid.reach_of_neighbour facing hc with ⟨hn, -⟩ | ⟨next, hn, hr⟩
      · rw [scanned_iff_of_none hn, firstOccupiedFrom, hn]
      · rw [scanned_iff_of_some hn, firstOccupiedFrom, hn,
          ih (Grid.contains_of_neighbour hc hn) (by omega)]
        by_cases full : a.occupied next <;> simp [full]

/-- **A scan from the robot comes to the first occupied cell ahead.** -/
theorem scanned_iff (inside : a.grid.contains a.robot.cell) :
    Scanned a a.robot.facing a.robot.cell answer ↔ answer = a.firstOccupiedAhead :=
  scanned_iff_firstOccupiedFrom inside le_rfl

/-! ### The nearest cell that is filled -/

/-- A wall, another robot or a battery is on the cell. -/
def Filled (a : Arena) (cell : Cell) : Prop :=
  cell ∈ a.walls ∨ cell ∈ a.others ∨ a.batteries.chargesAt cell ≠ []

/-- The cell is straight ahead of the robot at this distance, something is on it, and nothing is on
any cell that is nearer. -/
structure Nearest (a : Arena) (distance : Nat) (target : Cell) : Prop where
  apart : 1 ≤ distance
  ahead : a.robot.cell.Ahead a.robot.facing distance target
  inside : a.grid.contains target
  filled : a.Filled target
  clear : ∀ nearer cell, 1 ≤ nearer → nearer < distance →
    a.robot.cell.Ahead a.robot.facing nearer cell → ¬ a.Filled cell

theorem WellPlaced.occupied_iff (ha : a.WellPlaced) : a.occupied cell ↔ a.Filled cell := by
  rw [occupied, Bool.or_eq_true, obstructed_iff, ha.piles.holds_iff, or_assoc]
  rfl

theorem WellPlaced.getElem?_cellsAhead (ha : a.WellPlaced) :
    a.cellsAhead[distance]? = some cell ↔
      a.robot.cell.Ahead a.robot.facing (distance + 1) cell ∧ a.grid.contains cell := by
  rw [cellsAhead, Grid.getElem?_ahead ha.robot_inside]
  refine and_iff_right_of_imp ?_
  rintro ⟨hahead, inside⟩
  exact Grid.le_reach_of_ahead ha.robot_inside inside hahead

/-- **The first occupied cell ahead is the nearest one with anything on it.** -/
theorem WellPlaced.firstOccupiedAhead_eq_some_iff (ha : a.WellPlaced) :
    a.firstOccupiedAhead = some target ↔ ∃ distance, a.Nearest distance target := by
  rw [firstOccupiedAhead_eq_find?, List.find?_eq_some_iff_getElem]
  constructor
  · rintro ⟨full, i, hi, hget, nearer⟩
    obtain ⟨hahead, inside⟩ :=
      ha.getElem?_cellsAhead.mp ((List.getElem?_eq_getElem hi).trans (congrArg some hget))
    refine ⟨i + 1, by omega, hahead, inside, ha.occupied_iff.mp full, ?_⟩
    intro j c hj hji hc filled
    obtain ⟨j, rfl⟩ : ∃ k, j = k + 1 := ⟨j - 1, by omega⟩
    have hlt : j < a.cellsAhead.length := by omega
    obtain ⟨hc', -⟩ := ha.getElem?_cellsAhead.mp (List.getElem?_eq_getElem hlt)
    have free := nearer j (by omega)
    rw [← hc.unique hc', ha.occupied_iff.mpr filled] at free
    cases free
  · rintro ⟨distance, near⟩
    obtain ⟨i, rfl⟩ : ∃ k, distance = k + 1 := ⟨distance - 1, by have := near.apart; omega⟩
    obtain ⟨hi, hget⟩ := List.getElem?_eq_some_iff.mp
      (ha.getElem?_cellsAhead.mpr ⟨near.ahead, near.inside⟩)
    refine ⟨ha.occupied_iff.mpr near.filled, i, hi, hget, ?_⟩
    intro j hj
    have hlt : j < a.cellsAhead.length := by omega
    obtain ⟨hc, -⟩ := ha.getElem?_cellsAhead.mp (List.getElem?_eq_getElem hlt)
    have free := near.clear (j + 1) _ (by omega) (by omega) hc
    rw [Bool.not_eq_true', Bool.eq_false_iff]
    exact fun full => free (ha.occupied_iff.mp full)

/-- There is no first occupied cell ahead exactly if nothing is on any cell up to the edge. -/
theorem WellPlaced.firstOccupiedAhead_eq_none_iff (ha : a.WellPlaced) :
    a.firstOccupiedAhead = none ↔ ∀ distance cell, 1 ≤ distance →
      a.robot.cell.Ahead a.robot.facing distance cell → a.grid.contains cell → ¬ a.Filled cell := by
  rw [firstOccupiedAhead_eq_find?, List.find?_eq_none]
  constructor
  · intro free distance cell apart hahead inside filled
    obtain ⟨i, rfl⟩ : ∃ k, distance = k + 1 := ⟨distance - 1, by omega⟩
    have hmem := List.mem_of_getElem? (ha.getElem?_cellsAhead.mpr ⟨hahead, inside⟩)
    exact free cell hmem (ha.occupied_iff.mpr filled)
  · intro free cell hmem full
    obtain ⟨i, hget⟩ := List.mem_iff_getElem?.mp hmem
    obtain ⟨hahead, inside⟩ := ha.getElem?_cellsAhead.mp hget
    exact free (i + 1) cell (by omega) hahead inside (ha.occupied_iff.mp full)

/-! ### What is on a cell -/

/-- What stands and lies on a cell, the controlled robot apart. -/
structure Contents where
  wall : Bool
  robot : Bool
  /-- The charges of the batteries, in placing order. -/
  charges : List Float

def contents (a : Arena) (cell : Cell) : Contents :=
  ⟨a.walls.contains cell, a.others.contains cell, a.batteries.chargesAt cell⟩

/-- A hit on a robot removes it and nothing else. -/
theorem contents_hit_of_mem (h : target ∈ a.others) :
    (a.hit target).contents target = { a.contents target with robot := false } := by
  rcases hit_cases a target with ⟨-, hhit⟩ | ⟨hno, -⟩
  · rw [hhit]
    simp [contents]
  · exact absurd h hno

/-- A hit where no robot is removes the batteries and nothing else. -/
theorem contents_hit_of_not_mem (h : target ∉ a.others) :
    (a.hit target).contents target = { a.contents target with charges := [] } := by
  rcases hit_cases a target with ⟨hyes, -⟩ | ⟨-, hhit⟩
  · exact absurd hyes h
  · rw [hhit]
    simp [contents, Batteries.chargesAt, Batteries.pile?_clear]

/-- A hit changes nothing on the other cells. -/
theorem contents_hit_of_ne (h : cell ≠ target) :
    (a.hit target).contents cell = a.contents cell := by
  rcases hit_cases a target with ⟨-, hhit⟩ | ⟨-, hhit⟩
  · rw [hhit]
    simp [contents, h]
  · rw [hhit]
    simp [contents, Batteries.chargesAt, Batteries.pile?_clear, h]

/-! ### Shots -/

/-- What a shot makes of the cells. It removes a robot on the first occupied cell ahead and leaves
the batteries there; if no robot is there it removes the batteries. Nothing else changes on any cell,
and the controlled robot keeps its place. -/
structure Struck (a b : Arena) : Prop where
  grid : b.grid = a.grid
  unmoved : b.robot.cell = a.robot.cell ∧ b.robot.facing = a.robot.facing
  robot : ∀ target, a.firstOccupiedAhead = some target → target ∈ a.others →
    b.contents target = { a.contents target with robot := false }
  batteries : ∀ target, a.firstOccupiedAhead = some target → target ∉ a.others →
    b.contents target = { a.contents target with charges := [] }
  elsewhere : ∀ cell, a.firstOccupiedAhead ≠ some cell → b.contents cell = a.contents cell

theorem struck_shot (a : Arena) : Struck a a.shot := by
  have robot := a.shot_robot
  refine ⟨a.shot_grid, ⟨congrArg Robot.cell robot, congrArg Robot.facing robot⟩, ?_, ?_, ?_⟩
  · intro target ahead standing
    rw [shot_of_some ahead]
    exact contents_hit_of_mem standing
  · intro target ahead free
    rw [shot_of_some ahead]
    exact contents_hit_of_not_mem free
  · intro cell apart
    rcases shot_cases a with ⟨-, hshot⟩ | ⟨target, ahead, hshot⟩
    · rw [hshot]
    · rw [hshot]
      exact contents_hit_of_ne fun heq => apart (heq ▸ ahead)

/-- Paying changes nothing that a scan looks at. -/
theorem firstOccupiedAhead_paid (a : Arena) (cost : Float) :
    (a.paid cost).firstOccupiedAhead = a.firstOccupiedAhead := by
  rw [firstOccupiedAhead_eq_find?, firstOccupiedAhead_eq_find?]
  rfl

/-- **A shot that is paid for hits the cell that was ahead before.** -/
theorem struck_shot_paid (a : Arena) (cost : Float) : Struck a (a.paid cost).shot := by
  have struck := (a.paid cost).struck_shot
  refine ⟨struck.grid, struck.unmoved, ?_, ?_, ?_⟩
  · intro target h
    exact struck.robot target ((a.firstOccupiedAhead_paid cost).trans h)
  · intro target h
    exact struck.batteries target ((a.firstOccupiedAhead_paid cost).trans h)
  · intro cell h
    exact struck.elsewhere cell ((a.firstOccupiedAhead_paid cost).trans_ne h)

/-- **A shot hits the nearest cell that is filled, and nothing else.** In an arena that was built
and in which anything was done, the scan ahead of the robot comes to an end: at the nearest cell
straight ahead with a wall, a robot or a battery, or without an answer if nothing is on any cell up
to the edge. A shot that the robot can pay for is fired, and it strikes that cell only. -/
theorem shot_hits_nearest {start : Arena} (built : Built costs start)
    (operated : Operated start a) :
    (∀ answer, Scanned a a.robot.facing a.robot.cell answer ↔ answer = a.firstOccupiedAhead) ∧
    (∀ target, a.firstOccupiedAhead = some target ↔ ∃ distance, a.Nearest distance target) ∧
    (a.firstOccupiedAhead = none ↔ ∀ distance cell, 1 ≤ distance →
      a.robot.cell.Ahead a.robot.facing distance cell → a.grid.contains cell → ¬ a.Filled cell) ∧
    (a.costs.shoot ≤ a.robot.energy →
      (a.attempt .shoot).1 = .applied ∧ Struck a (a.attempt .shoot).2) := by
  have placed : a.WellPlaced := built.wellPlaced.reached operated.reaches
  refine ⟨?_, ?_, placed.firstOccupiedAhead_eq_none_iff, ?_⟩
  · intro answer
    exact scanned_iff placed.robot_inside
  · intro target
    exact placed.firstOccupiedAhead_eq_some_iff
  · intro enough
    have fired := attempt_of_carried (.shoot (Decimal.not_lt_of_le enough))
    rw [fired]
    exact ⟨rfl, { a.struck_shot_paid a.costs.shoot with }⟩

/-- A robot stands on a battery, ahead of a wall. -/
def gallery : List Placement :=
  [.battery ⟨2, 0⟩ 100.0, .robot ⟨2, 0⟩, .wall ⟨3, 0⟩]

/-- A shot in the gallery removes the robot. It leaves the battery under it and the wall behind. -/
theorem shot_hits_nearest_gallery :
    ∃ start a : Arena, create ⟨4, 1⟩ ⟨⟨0, 0⟩, .right, 2000.0⟩ {} = .ok start ∧
      start.placeAll gallery = .ok a ∧ a.costs.shoot ≤ a.robot.energy ∧
      (∃ distance, a.Nearest distance ⟨2, 0⟩) ∧ (a.attempt .shoot).1 = .applied ∧
      (a.attempt .shoot).2.contents ⟨2, 0⟩ = ⟨false, false, [100.0]⟩ ∧
      (a.attempt .shoot).2.contents ⟨3, 0⟩ = ⟨true, false, []⟩ := by
  obtain ⟨start, a, created, placed, enough, found, robot, under, behind⟩ :
      ∃ start a : Arena, create ⟨4, 1⟩ ⟨⟨0, 0⟩, .right, 2000.0⟩ {} = .ok start ∧
        start.placeAll gallery = .ok a ∧ a.costs.shoot ≤ a.robot.energy ∧
        a.firstOccupiedAhead = some ⟨2, 0⟩ ∧ ⟨2, 0⟩ ∈ a.others ∧
        a.contents ⟨2, 0⟩ = ⟨false, true, [100.0]⟩ ∧ a.contents ⟨3, 0⟩ = ⟨true, false, []⟩ :=
    ⟨_, _, rfl, rfl, by decide, rfl, by decide, rfl, rfl⟩
  have built := (Built.create created).placeAll placed
  obtain ⟨-, nearest, -, fires⟩ := shot_hits_nearest built .refl
  obtain ⟨applied, struck⟩ := fires enough
  refine ⟨start, a, created, placed, enough, (nearest _).mp found, applied, ?_, ?_⟩
  · rw [struck.robot _ found robot, under]
  · rw [struck.elsewhere _ (found ▸ by decide), behind]

end Arena

end RobotControl
