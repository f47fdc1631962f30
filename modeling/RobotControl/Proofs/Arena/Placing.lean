import RobotControl.Proofs.Arena.Building

/-!
Things placed one after another.

Every placement is checked against what is in the arena by then. What one of them does to those
after it can be said without the arena: a wall or a robot keeps all other things away from its cell,
and a battery keeps nothing away.

* `Arena.Admits`, `Arena.place_eq_ok_iff_admits`: which things can be placed, and what they leave.
* `Arena.admits_put_iff`: what a thing that was placed keeps away.
* `Arena.placeAll_eq_ok_iff`: things can be placed one after another exactly if each can be placed
  by itself and none keeps a later one away.
* `Arena.sameCells_put_put`: two things leave the same arena in either order, unless they belong to
  one pile of batteries.
* `Arena.placing_order`: when the order of two placements matters.
* `Arena.exists_order_matters`: it does for a battery and a wall on one cell.
-/

namespace RobotControl

namespace Placement

/-- Where the thing is put. -/
def cell : Placement → Cell
  | .wall cell => cell
  | .robot cell => cell
  | .battery cell _ => cell

def isBattery : Placement → Bool
  | .battery _ _ => true
  | _ => false

/-- The walls that are put up. -/
def walls : Placement → List Cell
  | .wall cell => [cell]
  | _ => []

/-- The robots that are placed. -/
def others : Placement → List Cell
  | .robot cell => [cell]
  | _ => []

/-- The charges that come to a cell. -/
def chargesAt (cell : Cell) : Placement → List Float
  | .battery place charge => if place = cell then [charge] else []
  | _ => []

/-- The controlled robot does not stand in the way of a wall or a robot, and a battery holds an
amount of energy. -/
def Fits (robot : Cell) : Placement → Prop
  | .wall cell => cell ≠ robot
  | .robot cell => cell ≠ robot
  | .battery _ charge => charge.isFinite ∧ 0.0 ≤ charge

/-- Nothing can be placed on the cell any more. -/
def Obstructs (p : Placement) (cell : Cell) : Prop :=
  ¬ p.isBattery ∧ p.cell = cell

/-- Two batteries for one cell. -/
def SamePile (p q : Placement) : Prop :=
  p.isBattery ∧ q.isBattery ∧ p.cell = q.cell

/-- A battery, and a wall or a robot, for one cell. -/
def Overlaps (p q : Placement) : Prop :=
  p.isBattery ≠ q.isBattery ∧ p.cell = q.cell

instance (p : Placement) (cell : Cell) : Decidable (p.Obstructs cell) :=
  inferInstanceAs (Decidable (_ ∧ _))

instance (p q : Placement) : Decidable (p.SamePile q) :=
  inferInstanceAs (Decidable (_ ∧ _ ∧ _))

@[simp]
theorem obstructs_wall {own cell : Cell} : (wall own).Obstructs cell ↔ own = cell :=
  and_iff_right Bool.false_ne_true

@[simp]
theorem obstructs_robot {own cell : Cell} : (robot own).Obstructs cell ↔ own = cell :=
  and_iff_right Bool.false_ne_true

@[simp]
theorem not_obstructs_battery {own cell : Cell} {charge : Float} :
    ¬ (battery own charge).Obstructs cell :=
  fun h => h.1 rfl

theorem obstructs_iff {p : Placement} {cell : Cell} :
    p.Obstructs cell ↔ cell ∈ p.walls ∨ cell ∈ p.others := by
  cases p <;> simp [walls, others, eq_comm]

theorem chargesAt_of_ne {p : Placement} {cell : Cell} (h : p.cell ≠ cell) :
    p.chargesAt cell = [] := by
  cases p with
  | wall _ => rfl
  | robot _ => rfl
  | battery _ _ => exact if_neg h

theorem chargesAt_of_not_isBattery {p : Placement} (h : ¬ p.isBattery) (cell : Cell) :
    p.chargesAt cell = [] := by
  cases p with
  | wall _ => rfl
  | robot _ => rfl
  | battery _ _ => exact absurd rfl h

end Placement

namespace Arena

variable {a b c : Arena} {p q : Placement} {ps : List Placement} {cell : Cell}

/-! ### What a placement leaves -/

/-- The arena with one more thing in it. -/
def put (a : Arena) : Placement → Arena
  | .wall cell => { a with walls := a.walls ++ [cell] }
  | .robot cell => { a with others := a.others ++ [cell] }
  | .battery cell charge => { a with batteries := a.batteries.place cell charge }

/-- The arena with more things in it. -/
def putAll (a : Arena) (ps : List Placement) : Arena :=
  ps.foldl put a

/-- All of the arena but the things that are placed in it. -/
def bare (a : Arena) : Arena :=
  { a with walls := [], others := [], batteries := .empty }

theorem bare_put (a : Arena) (p : Placement) : (a.put p).bare = a.bare := by
  cases p <;> rfl

theorem grid_put (a : Arena) (p : Placement) : (a.put p).grid = a.grid := by
  cases p <;> rfl

theorem robot_put (a : Arena) (p : Placement) : (a.put p).robot = a.robot := by
  cases p <;> rfl

theorem walls_put (a : Arena) (p : Placement) : (a.put p).walls = a.walls ++ p.walls := by
  cases p <;> simp [put, Placement.walls]

theorem others_put (a : Arena) (p : Placement) : (a.put p).others = a.others ++ p.others := by
  cases p <;> simp [put, Placement.others]

theorem chargesAt_put (a : Arena) (p : Placement) (cell : Cell) :
    (a.put p).batteries.chargesAt cell = a.batteries.chargesAt cell ++ p.chargesAt cell := by
  cases p <;> simp [put, Placement.chargesAt, Batteries.chargesAt_place]

theorem obstructed_put_iff :
    (a.put p).obstructed cell ↔ a.obstructed cell ∨ p.Obstructs cell := by
  rw [obstructed_iff, obstructed_iff, walls_put, others_put, List.mem_append, List.mem_append,
    Placement.obstructs_iff]
  tauto

theorem putAll_cons (a : Arena) (p : Placement) (ps : List Placement) :
    a.putAll (p :: ps) = (a.put p).putAll ps := rfl

theorem putAll_concat (a : Arena) (ps : List Placement) (p : Placement) :
    a.putAll (ps ++ [p]) = (a.putAll ps).put p :=
  List.foldl_concat ..

theorem bare_putAll (a : Arena) (ps : List Placement) : (a.putAll ps).bare = a.bare := by
  induction ps generalizing a with
  | nil => rfl
  | cons p ps ih => rw [putAll_cons, ih, bare_put]

theorem grid_putAll (a : Arena) (ps : List Placement) : (a.putAll ps).grid = a.grid := by
  have same := congrArg Arena.grid (a.bare_putAll ps)
  exact same

theorem robot_putAll (a : Arena) (ps : List Placement) : (a.putAll ps).robot = a.robot := by
  have same := congrArg Arena.robot (a.bare_putAll ps)
  exact same

/-- What each placement adds to a list, several add one after another. -/
theorem putAll_eq_append {α : Type} {f : Arena → List α} {g : Placement → List α}
    (put : ∀ (a : Arena) (p : Placement), f (a.put p) = f a ++ g p) (a : Arena)
    (ps : List Placement) : f (a.putAll ps) = f a ++ ps.flatMap g := by
  induction ps generalizing a with
  | nil => rw [List.flatMap_nil, List.append_nil]; rfl
  | cons p ps ih => rw [putAll_cons, ih, put, List.flatMap_cons, List.append_assoc]

theorem walls_putAll (a : Arena) (ps : List Placement) :
    (a.putAll ps).walls = a.walls ++ ps.flatMap Placement.walls :=
  putAll_eq_append walls_put a ps

theorem others_putAll (a : Arena) (ps : List Placement) :
    (a.putAll ps).others = a.others ++ ps.flatMap Placement.others :=
  putAll_eq_append others_put a ps

theorem chargesAt_putAll (a : Arena) (ps : List Placement) (cell : Cell) :
    (a.putAll ps).batteries.chargesAt cell =
      a.batteries.chargesAt cell ++ ps.flatMap (Placement.chargesAt cell) :=
  putAll_eq_append (f := fun a => a.batteries.chargesAt cell)
    (fun a p => a.chargesAt_put p cell) a ps

theorem obstructed_putAll_iff : (a.putAll ps).obstructed cell ↔
    a.obstructed cell ∨ ∃ p ∈ ps, p.Obstructs cell := by
  induction ps generalizing a with
  | nil => simp [putAll]
  | cons p ps ih => rw [putAll_cons, ih, obstructed_put_iff, List.exists_mem_cons_iff, or_assoc]

/-! ### What can be placed -/

/-- The thing can be placed: its cell is on the grid, no wall and no other robot stands there, and it
fits with the controlled robot. -/
def Admits (a : Arena) (p : Placement) : Prop :=
  a.grid.contains p.cell ∧ ¬ a.obstructed p.cell ∧ p.Fits a.robot.cell

/-- **A thing is placed exactly if the arena admits it.** -/
theorem place_eq_ok_iff_admits : a.place p = .ok b ↔ a.Admits p ∧ b = a.put p := by
  rw [place_eq_ok_iff]
  constructor
  · intro h
    cases h with
    | wall inside apart free => exact ⟨⟨inside, free, apart⟩, rfl⟩
    | robot inside apart free => exact ⟨⟨inside, free, apart⟩, rfl⟩
    | battery inside free charge => exact ⟨⟨inside, free, charge⟩, rfl⟩
  · rintro ⟨⟨inside, free, rest⟩, rfl⟩
    cases p with
    | wall _ => exact .wall inside rest free
    | robot _ => exact .robot inside rest free
    | battery _ _ => exact .battery inside free rest

/-- **What was placed keeps things away from its cell only**, and only if it is not a battery. -/
theorem admits_put_iff : (a.put p).Admits q ↔ a.Admits q ∧ ¬ p.Obstructs q.cell := by
  rw [Admits, Admits, grid_put, robot_put, obstructed_put_iff, not_or]
  constructor
  · rintro ⟨inside, ⟨free, away⟩, rest⟩
    exact ⟨⟨inside, free, rest⟩, away⟩
  · rintro ⟨⟨inside, free, rest⟩, away⟩
    exact ⟨inside, ⟨free, away⟩, rest⟩

/-- **Things can be placed one after another exactly if each can be placed by itself and none keeps
a later one away.** -/
theorem placeAll_eq_ok_iff : a.placeAll ps = .ok b ↔
    (∀ p ∈ ps, a.Admits p) ∧ ps.Pairwise (fun p q => ¬ p.Obstructs q.cell) ∧ b = a.putAll ps := by
  induction ps generalizing a with
  | nil =>
      constructor
      · intro h
        cases h
        exact ⟨List.forall_mem_nil _, .nil, rfl⟩
      · rintro ⟨-, -, rfl⟩
        rfl
  | cons p ps ih =>
      rw [placeAll, List.foldlM_cons, bind_eq_ok_iff, List.forall_mem_cons, List.pairwise_cons]
      constructor
      · rintro ⟨next, first, rest⟩
        obtain ⟨admitted, rfl⟩ := place_eq_ok_iff_admits.mp first
        obtain ⟨each, apart, rfl⟩ := ih.mp rest
        have each' (q : Placement) (hq : q ∈ ps) := admits_put_iff.mp (each q hq)
        exact ⟨⟨admitted, fun q hq => (each' q hq).1⟩, ⟨fun q hq => (each' q hq).2, apart⟩, rfl⟩
      · rintro ⟨⟨admitted, each⟩, ⟨away, apart⟩, rfl⟩
        refine ⟨a.put p, place_eq_ok_iff_admits.mpr ⟨admitted, rfl⟩, ih.mpr ⟨?_, apart, rfl⟩⟩
        intro q hq
        exact admits_put_iff.mpr ⟨each q hq, away q hq⟩

/-! ### Two placements -/

/-- The things can be placed in this order. -/
def Possible (a : Arena) (ps : List Placement) : Prop :=
  ∃ b, a.placeAll ps = .ok b

theorem possible_iff : a.Possible ps ↔
    (∀ p ∈ ps, a.Admits p) ∧ ps.Pairwise (fun p q => ¬ p.Obstructs q.cell) := by
  constructor
  · rintro ⟨b, h⟩
    obtain ⟨each, apart, -⟩ := placeAll_eq_ok_iff.mp h
    exact ⟨each, apart⟩
  · rintro ⟨each, apart⟩
    exact ⟨_, placeAll_eq_ok_iff.mpr ⟨each, apart, rfl⟩⟩

theorem possible_singleton : a.Possible [p] ↔ a.Admits p := by
  simp [possible_iff]

theorem possible_pair :
    a.Possible [p, q] ↔ a.Admits p ∧ a.Admits q ∧ ¬ p.Obstructs q.cell := by
  simp [possible_iff, and_assoc]

/-- The same walls, robots and batteries on every cell, and all else the same. -/
structure SameCells (a b : Arena) : Prop where
  walls : ∀ cell, cell ∈ a.walls ↔ cell ∈ b.walls
  others : ∀ cell, cell ∈ a.others ↔ cell ∈ b.others
  charges : ∀ cell, a.batteries.chargesAt cell = b.batteries.chargesAt cell
  bare : a.bare = b.bare

/-- **Two things leave the same arena in either order**, unless they belong to one pile. -/
theorem sameCells_put_put (a : Arena) (apart : ¬ p.SamePile q) :
    SameCells ((a.put p).put q) ((a.put q).put p) := by
  constructor
  · intro cell
    simp only [walls_put, List.mem_append, or_right_comm]
  · intro cell
    simp only [others_put, List.mem_append, or_right_comm]
  · intro cell
    simp only [chargesAt_put, List.append_assoc, List.append_cancel_left_eq]
    -- One of the two brings no charge to the cell.
    by_cases hp : p.isBattery
    · by_cases hq : q.isBattery
      · have elsewhere : p.cell ≠ cell ∨ q.cell ≠ cell := by
          by_contra both
          push Not at both
          exact apart ⟨hp, hq, both.1.trans both.2.symm⟩
        rcases elsewhere with h | h <;> simp [Placement.chargesAt_of_ne h]
      · simp [Placement.chargesAt_of_not_isBattery hq]
    · simp [Placement.chargesAt_of_not_isBattery hp]
  · simp only [bare_put]

/-- On an obstructed cell a battery is refused, whatever it holds. -/
theorem place_of_obstructed (battery : p.isBattery) (inside : a.grid.contains p.cell)
    (full : a.obstructed p.cell) : a.place p = .error (.occupied p.cell) := by
  cases p with
  | wall _ => cases battery
  | robot _ => cases battery
  | battery cell charge =>
      have bounds : checkBounds a.grid cell = .ok () := checkBounds_eq_ok_iff.mpr inside
      have refused : a.checkBattery cell charge = .error (.occupied cell) := by
        rw [checkBattery, bounds]
        exact if_pos full
      rw [place, refused]
      rfl

/-- **The order of two placements matters on one cell, if one of them is a battery.** Two things can
be placed in one order exactly if they can be placed in the other, unless a battery and a wall or a
robot are to come to one cell where each of them could be placed. There the battery can be placed
first, and on the wall or the robot it is refused. Whenever both orders are possible they leave the
same walls, robots and batteries, unless two batteries come to one pile. -/
theorem placing_order (a : Arena) (p q : Placement) :
    ((a.Possible [p, q] ↔ a.Possible [q, p]) ↔
      ¬ (p.Overlaps q ∧ a.Possible [p] ∧ a.Possible [q])) ∧
    (p.Overlaps q → p.isBattery →
      (a.Possible [p, q] ↔ a.Possible [p] ∧ a.Possible [q]) ∧
        ∀ b, a.place q = .ok b → b.place p = .error (.occupied p.cell)) ∧
    (¬ p.SamePile q → ∀ b c, a.placeAll [p, q] = .ok b → a.placeAll [q, p] = .ok c →
      SameCells b c) := by
  refine ⟨?_, ?_, ?_⟩
  · rw [possible_pair, possible_pair, possible_singleton, possible_singleton, Placement.Obstructs,
      Placement.Obstructs, Placement.Overlaps, eq_comm (a := q.cell)]
    cases p.isBattery <;> cases q.isBattery <;> simp <;> tauto
  · rintro ⟨kinds, same⟩ battery
    rw [possible_pair, possible_singleton, possible_singleton]
    have lets : ¬ p.Obstructs q.cell := fun h => h.1 battery
    refine ⟨by tauto, ?_⟩
    intro b placed
    obtain ⟨⟨inside, -⟩, rfl⟩ := place_eq_ok_iff_admits.mp placed
    have obstacle : ¬ q.isBattery := fun h => kinds (battery.trans h.symm)
    apply place_of_obstructed battery
    · rwa [grid_put, same]
    · exact obstructed_put_iff.mpr (.inr ⟨obstacle, same.symm⟩)
  · intro apart b c first second
    obtain ⟨-, -, rfl⟩ := placeAll_eq_ok_iff.mp first
    obtain ⟨-, -, rfl⟩ := placeAll_eq_ok_iff.mp second
    exact a.sameCells_put_put apart

/-- A wall and a battery on two cells leave the same arena in either order. -/
theorem placing_order_apart :
    ∃ a b c : Arena, create ⟨3, 1⟩ ⟨⟨0, 0⟩, .right, 500.0⟩ {} = .ok a ∧
      a.placeAll [.wall ⟨2, 0⟩, .battery ⟨1, 0⟩ 100.0] = .ok b ∧
      a.placeAll [.battery ⟨1, 0⟩ 100.0, .wall ⟨2, 0⟩] = .ok c ∧ SameCells b c := by
  obtain ⟨a, b, c, created, first, second⟩ :
      ∃ a b c : Arena, create ⟨3, 1⟩ ⟨⟨0, 0⟩, .right, 500.0⟩ {} = .ok a ∧
        a.placeAll [.wall ⟨2, 0⟩, .battery ⟨1, 0⟩ 100.0] = .ok b ∧
        a.placeAll [.battery ⟨1, 0⟩ 100.0, .wall ⟨2, 0⟩] = .ok c :=
    ⟨_, _, _, rfl, rfl, rfl⟩
  obtain ⟨-, -, same⟩ := placing_order a (.wall ⟨2, 0⟩) (.battery ⟨1, 0⟩ 100.0)
  exact ⟨a, b, c, created, first, second, same (by decide) b c first second⟩

/-- **The order of placements matters.** A battery lies on a free cell and a wall is put on it, and
so is a robot; but where the wall or the robot stands already, the battery is refused. -/
theorem exists_order_matters :
    ∃ a : Arena, create ⟨3, 1⟩ ⟨⟨0, 0⟩, .right, 500.0⟩ {} = .ok a ∧
      ∀ obstacle ∈ [Placement.wall ⟨1, 0⟩, .robot ⟨1, 0⟩],
        ¬ obstacle.SamePile (.battery ⟨1, 0⟩ 100.0) ∧
        (∃ b, a.placeAll [.battery ⟨1, 0⟩ 100.0, obstacle] = .ok b) ∧
        ¬ ∃ c, a.placeAll [obstacle, .battery ⟨1, 0⟩ 100.0] = .ok c := by
  refine ⟨_, rfl, ?_⟩
  intro obstacle h
  rcases List.mem_pair.mp h with rfl | rfl
  · refine ⟨by decide, ⟨_, rfl⟩, ?_⟩
    rintro ⟨c, placed⟩
    cases placed
  · refine ⟨by decide, ⟨_, rfl⟩, ?_⟩
    rintro ⟨c, placed⟩
    cases placed

end Arena

end RobotControl
