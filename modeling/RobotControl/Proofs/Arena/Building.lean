import RobotControl.Layout.Basic
import RobotControl.Proofs.Arena.Acting
import RobotControl.Proofs.Arena.Batteries
import RobotControl.Proofs.Sequencing

/-!
How arenas come about.

* `Arena.create_eq_ok_iff`: what creating an arena checks, and what it gives.
* `Arena.Placed`, `Arena.place_eq_ok_iff`: what each placement checks, and what it changes.
* `Arena.placeAll_keeps`: what one placement keeps is kept by any number of them.
* `Arena.Built`: an arena is created, or built from a layout, and things are placed in it.
* `Arena.Built.induct`: what holds at first and is kept by placements holds in every arena built.
-/

namespace RobotControl

namespace Arena

variable {a b : Arena} {grid : Grid} {robot : Robot} {costs : Costs} {cell : Cell}
  {placement : Placement} {placements : List Placement}

theorem checkBounds_eq_ok_iff : checkBounds grid cell = .ok () ↔ grid.contains cell := by
  rw [checkBounds]
  constructor
  · intro h
    by_contra hout
    rw [if_neg hout] at h
    cases h
  · intro h
    rw [if_pos h]

/-- The arena is created if the grid has a cell, the energy can be stored and the robot is on the
grid; nothing stands or lies on it then. -/
theorem create_eq_ok_iff : create grid robot costs = .ok a ↔
    ¬(grid.width = 0 ∨ grid.height = 0) ∧ (0.0 ≤ robot.energy ∧ robot.energy ≤ costs.capacity) ∧
      grid.contains robot.cell ∧ a = ⟨grid, [], [], .empty, robot, costs, #[]⟩ := by
  rw [create]
  by_cases hgrid : grid.width = 0 ∨ grid.height = 0
  · rw [if_pos hgrid]
    constructor
    · intro h
      cases h
    · rintro ⟨hsome, -⟩
      exact absurd hgrid hsome
  rw [if_neg hgrid]
  by_cases henergy : 0.0 ≤ robot.energy ∧ robot.energy ≤ costs.capacity
  · rw [if_neg (not_not_intro henergy), bind_eq_ok_iff]
    constructor
    · rintro ⟨⟨⟩, hcell, heq⟩
      exact ⟨hgrid, henergy, checkBounds_eq_ok_iff.mp hcell, (Except.ok.inj heq).symm⟩
    · rintro ⟨-, -, hcell, rfl⟩
      exact ⟨(), checkBounds_eq_ok_iff.mpr hcell, rfl⟩
  · rw [if_pos henergy]
    constructor
    · intro h
      cases h
    · rintro ⟨-, hsome, -⟩
      exact absurd hsome henergy

/-! ### Placements -/

/-- What a placement makes of the arena. -/
inductive Placed (a : Arena) : Placement → Arena → Prop where
  | wall {cell : Cell} : a.grid.contains cell → cell ≠ a.robot.cell → ¬ a.obstructed cell →
      Placed a (.wall cell) { a with walls := a.walls ++ [cell] }
  | robot {cell : Cell} : a.grid.contains cell → cell ≠ a.robot.cell → ¬ a.obstructed cell →
      Placed a (.robot cell) { a with others := a.others ++ [cell] }
  | battery {cell : Cell} {charge : Float} : a.grid.contains cell → ¬ a.obstructed cell →
      charge.isFinite ∧ 0.0 ≤ charge →
      Placed a (.battery cell charge) { a with batteries := a.batteries.place cell charge }

theorem checkFree_eq_ok_iff : a.checkFree cell = .ok () ↔
    a.grid.contains cell ∧ cell ≠ a.robot.cell ∧ ¬ a.obstructed cell := by
  rw [checkFree, bind_eq_ok_iff]
  constructor
  · rintro ⟨⟨⟩, hcell, h⟩
    by_cases hfull : cell = a.robot.cell ∨ a.obstructed cell
    · rw [if_pos hfull] at h
      cases h
    · exact ⟨checkBounds_eq_ok_iff.mp hcell, not_or.mp hfull⟩
  · rintro ⟨hcell, hfree⟩
    exact ⟨(), checkBounds_eq_ok_iff.mpr hcell, if_neg (not_or.mpr hfree)⟩

theorem checkBattery_eq_ok_iff {charge : Float} : a.checkBattery cell charge = .ok () ↔
    a.grid.contains cell ∧ ¬ a.obstructed cell ∧ charge.isFinite ∧ 0.0 ≤ charge := by
  rw [checkBattery, bind_eq_ok_iff, ← Energy.isAmount_iff]
  constructor
  · rintro ⟨⟨⟩, hcell, h⟩
    by_cases hfull : a.obstructed cell
    · rw [if_pos hfull] at h
      cases h
    · rw [if_neg hfull] at h
      by_cases hcharge : Energy.isAmount charge
      · exact ⟨checkBounds_eq_ok_iff.mp hcell, hfull, hcharge⟩
      · rw [if_pos hcharge] at h
        cases h
  · rintro ⟨hcell, hfree, hcharge⟩
    refine ⟨(), checkBounds_eq_ok_iff.mpr hcell, ?_⟩
    rw [if_neg hfree, if_neg (not_not_intro hcharge)]
    rfl

/-- **A thing is placed in this way only.** -/
theorem place_eq_ok_iff : a.place placement = .ok b ↔ Placed a placement b := by
  cases placement with
  | wall cell =>
      rw [place, bind_eq_ok_iff]
      constructor
      · rintro ⟨⟨⟩, h, heq⟩
        obtain ⟨hcell, hrobot, hfree⟩ := checkFree_eq_ok_iff.mp h
        cases heq
        exact .wall hcell hrobot hfree
      · intro h
        cases h with
        | wall hcell hrobot hfree => exact ⟨(), checkFree_eq_ok_iff.mpr ⟨hcell, hrobot, hfree⟩, rfl⟩
  | robot cell =>
      rw [place, bind_eq_ok_iff]
      constructor
      · rintro ⟨⟨⟩, h, heq⟩
        obtain ⟨hcell, hrobot, hfree⟩ := checkFree_eq_ok_iff.mp h
        cases heq
        exact .robot hcell hrobot hfree
      · intro h
        cases h with
        | robot hcell hrobot hfree => exact ⟨(), checkFree_eq_ok_iff.mpr ⟨hcell, hrobot, hfree⟩, rfl⟩
  | battery cell charge =>
      rw [place, bind_eq_ok_iff]
      constructor
      · rintro ⟨⟨⟩, h, heq⟩
        obtain ⟨hcell, hfree, hcharge⟩ := checkBattery_eq_ok_iff.mp h
        cases heq
        exact .battery hcell hfree hcharge
      · intro h
        cases h with
        | battery hcell hfree hcharge =>
            exact ⟨(), checkBattery_eq_ok_iff.mpr ⟨hcell, hfree, hcharge⟩, rfl⟩

/-! ### Arenas that are built -/

/-- What placements keep is kept by any number of them. -/
theorem placeAll_keeps {P : Arena → Prop}
    (place : ∀ {a b placement}, Arena.place a placement = .ok b → P a → P b)
    (h : a.placeAll placements = .ok b) (ha : P a) : P b := by
  induction placements generalizing a with
  | nil =>
      cases h
      exact ha
  | cons first rest ih =>
      rw [placeAll, List.foldlM_cons, bind_eq_ok_iff] at h
      obtain ⟨next, hfirst, hrest⟩ := h
      exact ih hrest (place hfirst ha)

/-- The arena is created with these costs, or built from a layout with them, and then things are
placed in it one after another. -/
inductive Built (costs : Costs) : Arena → Prop where
  | create {grid : Grid} {robot : Robot} {a : Arena} :
      Arena.create grid robot costs = .ok a → Built costs a
  | layout {layout : Layout} {a : Arena} : layout.build costs = .ok a → Built costs a
  | place {placement : Placement} {a b : Arena} :
      Built costs a → a.place placement = .ok b → Built costs b

/-- Any number of things can be placed one after another. -/
theorem Built.placeAll (ha : Built costs a) (h : a.placeAll placements = .ok b) :
    Built costs b :=
  placeAll_keeps (fun placed built => built.place placed) h ha

/-- **What holds at first and is kept by placements holds in every arena that is built.** -/
theorem Built.induct {P : Arena → Prop}
    (create : ∀ {grid robot a}, Arena.create grid robot costs = .ok a → P a)
    (placed : ∀ {a b placement}, Placed a placement b → P a → P b) (h : Built costs a) : P a := by
  have place {a b : Arena} {placement : Placement} (h : a.place placement = .ok b) (ha : P a) : P b :=
    placed (place_eq_ok_iff.mp h) ha
  induction h with
  | create h => exact create h
  | layout h =>
      rw [Layout.build, bind_eq_ok_iff] at h
      obtain ⟨bare, hbare, hrest⟩ := h
      exact placeAll_keeps place hrest (create hbare)
  | place _ h ih => exact place h ih

end Arena

end RobotControl
