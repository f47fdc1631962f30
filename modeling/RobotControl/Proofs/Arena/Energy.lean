import RobotControl.Proofs.Arena.Soundness
import RobotControl.Settings.Basic

/-!
The store of the robot.

Three guards keep the energy between zero and the capacity: settings are checked before they are
used, the energy and the charges are checked when an arena is built, and an action is refused before
more is taken from the store than it holds, while what does not fit in is lost.

* `Settings.check_eq_ok_iff`: what settings that can be used satisfy.
* `Arena.Stored`: the store holds an amount of energy that is not above the capacity.
* `Arena.Stored.carried`: actions keep this where costs and charges are amounts.
* `Arena.energy_bounds_of_operated`: whatever is done to an arena that was built with checked
  settings, the energy is between zero and the capacity, and it is a number.
-/

namespace RobotControl

open Decimal

/-! ### Checked settings -/

/-- Every cost is finite and not below zero, and the capacity is finite and above zero. -/
structure Costs.Sound (c : Costs) : Prop where
  move : c.move.isFinite ∧ 0.0 ≤ c.move
  turn : c.turn.isFinite ∧ 0.0 ≤ c.turn
  shoot : c.shoot.isFinite ∧ 0.0 ≤ c.shoot
  capacity : c.capacity.isFinite ∧ 0.0 < c.capacity

theorem Energy.isCapacity_iff {x : Float} : Energy.isCapacity x ↔ x.isFinite ∧ 0.0 < x := by
  rw [isCapacity, Bool.and_eq_true, decide_eq_true_iff]

theorem Costs.check_eq_ok_iff {c : Costs} : c.check = .ok () ↔ c.Sound := by
  have named : (c.named.find? fun entry => !Energy.isAmount entry.2) = none ↔
      Energy.isAmount c.move ∧ Energy.isAmount c.turn ∧ Energy.isAmount c.shoot := by
    rw [List.find?_eq_none]
    simp [Costs.named]
  rw [Energy.isAmount_iff, Energy.isAmount_iff, Energy.isAmount_iff] at named
  rw [Costs.check]
  constructor
  · intro h
    rcases hf : c.named.find? fun entry => !Energy.isAmount entry.2 with _ | ⟨name, value⟩
    · obtain ⟨move, turn, shoot⟩ := named.mp hf
      rw [hf] at h
      by_cases hcap : Energy.isCapacity c.capacity
      · exact ⟨move, turn, shoot, Energy.isCapacity_iff.mp hcap⟩
      · dsimp only at h
        rw [if_neg hcap] at h
        cases h
    · rw [hf] at h
      cases h
  · rintro ⟨move, turn, shoot, capacity⟩
    rw [named.mpr ⟨move, turn, shoot⟩]
    exact if_pos (Energy.isCapacity_iff.mpr capacity)

/-- **Settings can be used exactly when all amounts in them make sense and a run may take a step.** -/
theorem Settings.check_eq_ok_iff {s : Settings} :
    s.check = .ok () ↔ s.costs.Sound ∧ s.maxSteps ≠ 0 := by
  rw [Settings.check, bind_eq_ok_iff, ← Costs.check_eq_ok_iff]
  constructor
  · rintro ⟨⟨⟩, costs, steps⟩
    refine ⟨costs, fun none => ?_⟩
    rw [if_pos none] at steps
    cases steps
  · rintro ⟨costs, steps⟩
    exact ⟨(), costs, if_neg steps⟩

/-! ### The store -/

namespace Arena

variable {a b : Arena} {costs : Costs} {placement : Placement} {action : Action}

/-- The costs are these, and the store holds an amount of energy that is not above the capacity. -/
structure Stored (costs : Costs) (a : Arena) : Prop where
  costs_eq : a.costs = costs
  nonneg : 0.0 ≤ a.robot.energy
  fits : a.robot.energy ≤ costs.capacity

theorem exists_isAmount_capacity (sound : costs.Sound) : ∃ w, IsAmount costs.capacity w :=
  Energy.exists_isAmount ⟨sound.capacity.1, le_of_lt sound.capacity.2⟩

/-- **What an action costs is taken from an amount that is not less.** -/
theorem Stored.spend {cost : Float} (sound : costs.Sound) (ha : Stored costs a)
    (price : cost.isFinite ∧ 0.0 ≤ cost) (afford : ¬ a.robot.energy < cost) :
    0.0 ≤ a.robot.energy - cost ∧ a.robot.energy - cost ≤ costs.capacity := by
  obtain ⟨w, hw⟩ := exists_isAmount_capacity sound
  obtain ⟨v, hv, he⟩ := hw.exists_of_le ha.nonneg ha.fits
  obtain ⟨c, hc⟩ := Energy.exists_isAmount price
  rw [he.lt_iff hc, not_lt] at afford
  obtain ⟨u, hu, hleft⟩ := he.sub hc afford
  exact ⟨hleft.zero_le, (hleft.le_iff hw).mpr (hu.trans hv)⟩

/-- **What a battery holds is stored up to the capacity.** -/
theorem Stored.refill {charge : Float} (sound : costs.Sound) (ha : Stored costs a)
    (amount : charge.isFinite ∧ 0.0 ≤ charge) :
    0.0 ≤ lesser (a.robot.energy + charge) costs.capacity ∧
      lesser (a.robot.energy + charge) costs.capacity ≤ costs.capacity := by
  obtain ⟨w, hw⟩ := exists_isAmount_capacity sound
  obtain ⟨v, -, he⟩ := hw.exists_of_le ha.nonneg ha.fits
  obtain ⟨c, hc⟩ := Energy.exists_isAmount amount
  have full : 0.0 ≤ costs.capacity ∧ costs.capacity ≤ costs.capacity :=
    ⟨hw.zero_le, (hw.le_iff hw).mpr le_rfl⟩
  rw [lesser]
  rcases he.add hc with ⟨u, hu⟩ | infinite
  · rw [hu.isNaN, if_neg Bool.false_ne_true]
    by_cases exceeds : costs.capacity < a.robot.energy + charge
    · rwa [if_pos exceeds]
    · rw [if_neg exceeds]
      rw [hw.lt_iff hu, not_lt] at exceeds
      exact ⟨hu.zero_le, (hu.le_iff hw).mpr exceeds⟩
  · rw [infinite.isNaN, if_neg Bool.false_ne_true, if_pos (hw.lt_unbounded infinite)]
    exact full

/-! ### Building and acting -/

theorem Stored.create {grid : Grid} {robot : Robot}
    (h : Arena.create grid robot costs = .ok a) : Stored costs a := by
  obtain ⟨-, energy, -, rfl⟩ := create_eq_ok_iff.mp h
  exact ⟨rfl, energy.1, energy.2⟩

theorem Stored.placed (h : Placed a placement b) (ha : Stored costs a) : Stored costs b := by
  cases h with
  | wall => exact { ha with }
  | robot => exact { ha with }
  | battery => exact { ha with }

/-- **An action keeps the store between zero and the capacity.** -/
theorem Stored.carried (sound : costs.Sound) (h : Carried a action b) (piles : a.WellPlaced)
    (ha : Stored costs a) : Stored costs b := by
  obtain rfl := ha.costs_eq
  cases h with
  | move afford =>
      obtain ⟨nonneg, fits⟩ := ha.spend sound sound.move afford
      exact ⟨rfl, nonneg, fits⟩
  | turnClockwise afford =>
      obtain ⟨nonneg, fits⟩ := ha.spend sound sound.turn afford
      exact ⟨rfl, nonneg, fits⟩
  | turnCounterclockwise afford =>
      obtain ⟨nonneg, fits⟩ := ha.spend sound sound.turn afford
      exact ⟨rfl, nonneg, fits⟩
  | shoot afford =>
      obtain ⟨nonneg, fits⟩ := ha.spend sound sound.shoot afford
      exact ⟨shot_costs _, by rwa [shot_robot], by rwa [shot_robot]⟩
  | pickUpAndUse taken =>
      obtain ⟨nonneg, fits⟩ := ha.refill sound (piles.piles.take taken).2
      exact ⟨rfl, nonneg, fits⟩

/-- **Whatever is done to an arena that was built with checked settings, the energy is between zero
and the capacity**, and it is a number. -/
theorem energy_bounds_of_operated {settings : Settings} (checked : settings.check = .ok ())
    (built : Built settings.costs a) (operated : Operated a b) :
    0.0 ≤ b.robot.energy ∧ b.robot.energy ≤ settings.costs.capacity ∧
      b.robot.energy.isNaN = false := by
  have sound : settings.costs.Sound := (Settings.check_eq_ok_iff.mp checked).1
  have stored : b.WellPlaced ∧ Stored settings.costs b := by
    let P (a : Arena) : Prop := a.WellPlaced ∧ Stored settings.costs a
    have enter (a : Arena) (attempt : Attempt) (ha : P a) : P (a.enter attempt) :=
      ⟨ha.1.enter attempt, { ha.2 with }⟩
    have start : P a := ⟨built.wellPlaced, built.induct Stored.create Stored.placed⟩
    exact keeps_of_carried enter (fun h ha => ⟨ha.1.carried h, ha.2.carried sound h ha.1⟩)
      operated.reaches start
  obtain ⟨w, hw⟩ := exists_isAmount_capacity sound
  obtain ⟨v, -, he⟩ := hw.exists_of_le stored.2.nonneg stored.2.fits
  exact ⟨stored.2.nonneg, stored.2.fits, he.isNaN⟩

/-- The robot in the corridor takes the battery, and turns until it can turn no more. -/
theorem energy_bounds_of_operated_corridor :
    ∃ a b : Arena, ({} : Settings).check = .ok () ∧ corridor.build {} = .ok a ∧
      (Program.seq [.act .pickUpAndUse, .loop (.energyAtLeast 100.0) (.act .turnClockwise)]).run 9 a =
        some (7, b) ∧ 0.0 ≤ b.robot.energy ∧ b.robot.energy ≤ 20000.0 := by
  have checked : ({} : Settings).check = .ok () := rfl
  have built : Built ({} : Settings).costs _ := .layout (rfl : corridor.build {} = .ok _)
  refine ⟨_, _, checked, rfl, rfl, ?_⟩
  obtain ⟨nonneg, fits, -⟩ := energy_bounds_of_operated checked built (.run .refl
    (rfl : (Program.seq [.act .pickUpAndUse,
      .loop (.energyAtLeast 100.0) (.act .turnClockwise)]).run 9 _ = some (7, _)))
  exact ⟨nonneg, fits⟩

end Arena

end RobotControl
