import Mathlib.Data.List.Nodup
import RobotControl.Arena.Batteries
import RobotControl.Arena.Costs
import RobotControl.Proofs.Decimal.Amounts

/-!
Piles of batteries.

A pile is listed for as long as it holds a battery, so that being listed and holding a battery are
one thing. This is what `Batteries.Sound` says, together with where the piles are and what they hold;
placing, taking and clearing keep it.

* `Energy.isAmount_iff`: an amount of energy is finite and not below zero.
* `Batteries.Sound`: the listed cells lie on the grid, are listed once and hold batteries, and every
  charge is an amount of energy.
* `Batteries.Sound.place`, `Batteries.Sound.clear`, `Batteries.Sound.take`: what keeps this.
* `Batteries.Sound.take?_isSome`: from a listed cell a battery can be taken.
* `Batteries.pile?_clear`, `Batteries.pile?_take`: which piles a change leaves.
* `Batteries.chargesAt_place`: what a placement adds to a pile.
* `Batteries.count_clear`, `Batteries.Sound.count_take`: how many batteries it leaves.
-/

namespace RobotControl

/-- A finite number that is not below zero is an amount. -/
theorem Energy.exists_isAmount {x : Float} (h : x.isFinite ∧ 0.0 ≤ x) :
    ∃ v, Decimal.IsAmount x v :=
  (Decimal.exists_isAmount_or_lt h.1).resolve_right fun below => below.2 h.2

/-- **An amount of energy is finite and not below zero.** -/
theorem Energy.isAmount_iff {x : Float} : Energy.isAmount x ↔ x.isFinite ∧ 0.0 ≤ x := by
  rw [isAmount, Bool.and_eq_true, Bool.not_eq_true', decide_eq_false_iff_not]
  refine and_congr_right fun finite => ?_
  rcases Decimal.exists_isAmount_or_lt finite with ⟨v, hx⟩ | below
  · rw [hx.lt_iff Decimal.isAmount_zero]
    exact iff_of_true hx.nonneg.not_gt hx.zero_le
  · exact iff_of_false (not_not_intro below.1) below.2

namespace Batteries

variable {b : Batteries} {cell : Cell} {charge : Float} {pile : List Float} {grid : Grid}

theorem mem_of_pile? (h : b.pile? cell = some pile) : (cell, pile) ∈ b.piles := by
  rw [pile?, Option.map_eq_some_iff] at h
  obtain ⟨⟨c, p⟩, hfind, rfl⟩ := h
  have hcell : c = cell := by simpa using List.find?_some hfind
  exact hcell ▸ List.mem_of_find?_eq_some hfind

theorem pile?_isSome_of_mem {entry : Cell × List Float} (h : entry ∈ b.piles) :
    (b.pile? entry.1).isSome := by
  rw [pile?, Option.isSome_map, List.find?_isSome]
  exact ⟨entry, h, by simp⟩

/-- The cells that are listed. -/
def cells (b : Batteries) : List Cell :=
  b.piles.map (·.1)

theorem holds_iff_mem_cells : b.holds cell ↔ cell ∈ b.cells := by
  rw [holds, cells, List.mem_map]
  constructor
  · intro h
    obtain ⟨pile, hp⟩ := Option.isSome_iff_exists.mp h
    exact ⟨_, mem_of_pile? hp, rfl⟩
  · rintro ⟨entry, hmem, rfl⟩
    exact pile?_isSome_of_mem hmem

/-! ### What a change leaves -/

theorem mem_pushOnto {piles : List (Cell × List Float)} {entry : Cell × List Float}
    (h : entry ∈ pushOnto cell charge piles) :
    entry ∈ piles ∨ entry = (cell, [charge]) ∨
      ∃ pile, (cell, pile) ∈ piles ∧ entry = (cell, pile ++ [charge]) := by
  induction piles with
  | nil => exact .inr (.inl (List.mem_singleton.mp h))
  | cons first rest ih =>
      obtain ⟨c, pile⟩ := first
      rw [pushOnto] at h
      by_cases hc : c = cell
      · rw [if_pos hc] at h
        subst hc
        rcases List.mem_cons.mp h with rfl | h
        · exact .inr (.inr ⟨pile, .head _, rfl⟩)
        · exact .inl (.tail _ h)
      · rw [if_neg hc] at h
        rcases List.mem_cons.mp h with rfl | h
        · exact .inl (.head _)
        · rcases ih h with hrest | hnew | ⟨pile', hrest, heq⟩
          · exact .inl (.tail _ hrest)
          · exact .inr (.inl hnew)
          · exact .inr (.inr ⟨pile', .tail _ hrest, heq⟩)

/-- Placing a battery lists its cell, at the end if it was not listed. -/
theorem cells_pushOnto (piles : List (Cell × List Float)) :
    (pushOnto cell charge piles).map (·.1) =
      if cell ∈ piles.map (·.1) then piles.map (·.1) else piles.map (·.1) ++ [cell] := by
  induction piles with
  | nil => rfl
  | cons first rest ih =>
      obtain ⟨c, pile⟩ := first
      rw [pushOnto]
      by_cases hc : c = cell
      · rw [if_pos hc, if_pos (by simp [hc])]
        rfl
      · rw [if_neg hc, List.map_cons, ih, List.map_cons]
        have hmem : (cell ∈ c :: rest.map (·.1)) ↔ cell ∈ rest.map (·.1) := by
          rw [List.mem_cons]
          exact or_iff_right (Ne.symm hc)
        simp only [hmem]
        split <;> rfl

theorem mem_clear {entry : Cell × List Float} :
    entry ∈ (b.clear cell).piles ↔ entry ∈ b.piles ∧ entry.1 ≠ cell := by
  rw [clear, List.mem_filter, decide_eq_true_iff]

theorem cells_relist : (b.relist cell pile).cells = b.cells := by
  rw [cells, cells, relist, List.map_map]
  refine List.map_congr_left fun entry _ => ?_
  show (if entry.1 = cell then (cell, pile) else entry).1 = entry.1
  split
  · rename_i h
    exact h.symm
  · rfl

theorem mem_relist {entry : Cell × List Float} (h : entry ∈ (b.relist cell pile).piles) :
    entry ∈ b.piles ∨ (entry = (cell, pile) ∧ cell ∈ b.cells) := by
  rw [relist, List.mem_map] at h
  obtain ⟨old, hold, heq⟩ := h
  split at heq
  · rename_i hcell
    exact .inr ⟨heq.symm, List.mem_map.mpr ⟨old, hold, hcell⟩⟩
  · exact .inl (heq ▸ hold)

/-! ### The piles a change leaves -/

/-- Clearing a cell leaves the pile of every other cell. -/
theorem pile?_clear (b : Batteries) (cell other : Cell) :
    (b.clear cell).pile? other = if other = cell then none else b.pile? other := by
  obtain ⟨piles⟩ := b
  simp only [pile?, clear]
  induction piles with
  | nil => simp
  | cons entry rest ih =>
      by_cases hcell : entry.1 = cell
      · rw [List.filter_cons_of_neg (by simp [hcell]), ih]
        by_cases hother : other = cell
        · simp [hother]
        · simp [hother, hcell, Ne.symm hother]
      · rw [List.filter_cons_of_pos (by simp [hcell]), List.find?_cons, List.find?_cons]
        by_cases hfound : entry.1 = other
        · simp [hfound, show other ≠ cell from hfound ▸ hcell]
        · simpa [hfound] using ih

/-- Listing another pile for a cell leaves the pile of every other cell. -/
theorem pile?_relist (b : Batteries) (cell other : Cell) (pile : List Float) :
    (b.relist cell pile).pile? other =
      if other = cell then (b.pile? cell).map fun _ => pile else b.pile? other := by
  obtain ⟨piles⟩ := b
  simp only [pile?, relist]
  induction piles with
  | nil => simp
  | cons entry rest ih =>
      rw [List.map_cons, List.find?_cons, List.find?_cons, List.find?_cons]
      by_cases hcell : entry.1 = cell
      · by_cases hother : other = cell
        · simp [hcell, hother]
        · simpa [hcell, hother, Ne.symm hother] using ih
      · by_cases hfound : entry.1 = other
        · simp [hfound, show other ≠ cell from hfound ▸ hcell]
        · simpa [hcell, hfound] using ih

theorem chargesAt_cons (entry : Cell × List Float) (rest : List (Cell × List Float)) (cell : Cell) :
    chargesAt ⟨entry :: rest⟩ cell = if entry.1 = cell then entry.2 else chargesAt ⟨rest⟩ cell := by
  rw [chargesAt, pile?, List.find?_cons]
  split
  · rename_i found
    rw [if_pos (of_decide_eq_true found)]
    rfl
  · rename_i other
    rw [if_neg (of_decide_eq_false other)]
    rfl

/-- **Placing a battery puts it on top of the pile of its cell** and leaves all other piles. -/
theorem chargesAt_place (b : Batteries) (cell other : Cell) (charge : Float) :
    (b.place cell charge).chargesAt other =
      b.chargesAt other ++ if cell = other then [charge] else [] := by
  obtain ⟨piles⟩ := b
  rw [place]
  induction piles with
  | nil =>
      rw [pushOnto, chargesAt_cons]
      split <;> rfl
  | cons entry rest ih =>
      obtain ⟨c, pile⟩ := entry
      rw [pushOnto, chargesAt_cons]
      by_cases own : c = cell
      · rw [if_pos own, chargesAt_cons, own]
        split <;> simp
      · rw [if_neg own, chargesAt_cons]
        by_cases found : c = other
        · have apart : cell ≠ other := fun heq => own (found.trans heq.symm)
          simp [found, apart]
        · rw [if_neg found, if_neg found]
          exact ih

/-! ### Sound piles -/

/-- The listed cells lie on the grid, are listed once and hold batteries, and every charge is an
amount of energy. -/
structure Sound (grid : Grid) (b : Batteries) : Prop where
  inside : ∀ cell ∈ b.cells, grid.contains cell
  filled : ∀ entry ∈ b.piles, entry.2 ≠ []
  amounts : ∀ entry ∈ b.piles, ∀ charge ∈ entry.2, charge.isFinite ∧ 0.0 ≤ charge
  once : b.cells.Nodup

theorem Sound.empty : empty.Sound grid := by
  constructor
  · intro cell h
    cases h
  · intro entry h
    cases h
  · intro entry h
    cases h
  · exact List.nodup_nil

theorem Sound.place (hb : b.Sound grid) (hcell : grid.contains cell)
    (hcharge : charge.isFinite ∧ 0.0 ≤ charge) : (b.place cell charge).Sound grid := by
  have hcells : (b.place cell charge).cells =
      if cell ∈ b.cells then b.cells else b.cells ++ [cell] := cells_pushOnto b.piles
  constructor
  · intro c hc
    rw [hcells] at hc
    split at hc
    · exact hb.inside c hc
    · rcases List.mem_append.mp hc with hc | hc
      · exact hb.inside c hc
      · rwa [List.mem_singleton.mp hc]
  · intro entry h
    rcases mem_pushOnto h with hold | rfl | ⟨pile, -, rfl⟩
    · exact hb.filled entry hold
    · exact List.cons_ne_nil _ _
    · exact List.append_ne_nil_of_right_ne_nil _ (List.cons_ne_nil _ _)
  · intro entry h x hx
    rcases mem_pushOnto h with hold | rfl | ⟨pile, hold, rfl⟩
    · exact hb.amounts entry hold x hx
    · rwa [List.mem_singleton.mp hx]
    · rcases List.mem_append.mp hx with hx | hx
      · exact hb.amounts _ hold x hx
      · rwa [List.mem_singleton.mp hx]
  · rw [hcells]
    split
    · exact hb.once
    · rename_i hnew
      exact List.nodup_append.mpr ⟨hb.once, List.nodup_singleton _, fun c hc d hd =>
        fun heq => hnew (List.mem_singleton.mp hd ▸ heq ▸ hc)⟩

theorem Sound.clear (hb : b.Sound grid) (cell : Cell) : (b.clear cell).Sound grid := by
  have hsub : (b.clear cell).cells.Sublist b.cells := List.filter_sublist.map _
  constructor
  · intro c hc
    exact hb.inside c (hsub.subset hc)
  · intro entry h
    exact hb.filled entry (mem_clear.mp h).1
  · intro entry h
    exact hb.amounts entry (mem_clear.mp h).1
  · exact hb.once.sublist hsub

theorem Sound.relist (hb : b.Sound grid) (hpile : pile ≠ [])
    (hamounts : ∀ charge ∈ pile, charge.isFinite ∧ 0.0 ≤ charge) :
    (b.relist cell pile).Sound grid := by
  constructor
  · rw [cells_relist]
    exact hb.inside
  · intro entry h
    rcases mem_relist h with hold | ⟨rfl, -⟩
    · exact hb.filled entry hold
    · exact hpile
  · intro entry h
    rcases mem_relist h with hold | ⟨rfl, -⟩
    · exact hb.amounts entry hold
    · exact hamounts
  · rw [cells_relist]
    exact hb.once

/-! ### Taking batteries -/

/-- What is taken is the battery that was placed last, and the others stay. -/
theorem exists_of_take? {left : Batteries} (h : b.take? cell = some (charge, left)) :
    ∃ pile, b.pile? cell = some (pile ++ [charge]) ∧
      left = if pile = [] then b.clear cell else b.relist cell pile := by
  rw [take?] at h
  obtain ⟨pile, hpile, h⟩ := Option.bind_eq_some_iff.mp h
  obtain ⟨last, hlast, h⟩ := Option.bind_eq_some_iff.mp h
  obtain ⟨rfl, rfl⟩ := Prod.mk.inj (Option.some.inj h)
  obtain ⟨front, rfl⟩ := List.getLast?_eq_some_iff.mp hlast
  refine ⟨front, hpile, ?_⟩
  rw [List.dropLast_concat]
  cases front <;> rfl

/-- **Taking a battery shortens the pile of its cell by the charge that is taken**, and leaves all
other piles. -/
theorem pile?_take {left : Batteries} (h : b.take? cell = some (charge, left)) :
    b.chargesAt cell = left.chargesAt cell ++ [charge] ∧
      ∀ other, other ≠ cell → left.pile? other = b.pile? other := by
  obtain ⟨pile, hpile, rfl⟩ := exists_of_take? h
  by_cases hempty : pile = []
  · rw [if_pos hempty]
    constructor
    · simp [chargesAt, pile?_clear, hpile, hempty]
    · intro other hother
      rw [pile?_clear, if_neg hother]
  · rw [if_neg hempty]
    constructor
    · simp [chargesAt, pile?_relist, hpile]
    · intro other hother
      rw [pile?_relist, if_neg hother]

theorem Sound.take {left : Batteries} (hb : b.Sound grid)
    (h : b.take? cell = some (charge, left)) :
    left.Sound grid ∧ charge.isFinite ∧ 0.0 ≤ charge := by
  obtain ⟨pile, hpile, rfl⟩ := exists_of_take? h
  have hamounts := hb.amounts _ (mem_of_pile? hpile)
  refine ⟨?_, hamounts charge (List.mem_append_right _ (List.mem_singleton_self _))⟩
  by_cases hempty : pile = []
  · rw [if_pos hempty]
    exact hb.clear cell
  · rw [if_neg hempty]
    exact hb.relist hempty fun x hx => hamounts x (List.mem_append_left _ hx)

/-! ### Counting batteries -/

theorem count_cons (entry : Cell × List Float) (rest : List (Cell × List Float)) :
    count ⟨entry :: rest⟩ = entry.2.length + count ⟨rest⟩ := rfl

theorem clear_cons_self (entry : Cell × List Float) (rest : List (Cell × List Float)) :
    clear ⟨entry :: rest⟩ entry.1 = clear ⟨rest⟩ entry.1 := by
  simp [clear]

theorem clear_cons_of_ne {entry : Cell × List Float} (h : entry.1 ≠ cell)
    (rest : List (Cell × List Float)) :
    clear ⟨entry :: rest⟩ cell = ⟨entry :: (clear ⟨rest⟩ cell).piles⟩ := by
  simp [clear, h]

/-- What is not listed needs no clearing. -/
theorem clear_of_not_mem (h : cell ∉ b.cells) : b.clear cell = b := by
  obtain ⟨piles⟩ := b
  rw [clear, List.filter_eq_self.mpr]
  intro entry hentry
  refine decide_eq_true fun heq => h ?_
  exact List.mem_map.mpr ⟨entry, hentry, heq⟩

/-- What is not listed is not listed otherwise. -/
theorem relist_of_not_mem (h : cell ∉ b.cells) (pile : List Float) : b.relist cell pile = b := by
  obtain ⟨piles⟩ := b
  have hsame : ∀ entry ∈ piles, (if entry.1 = cell then (cell, pile) else entry) = id entry := by
    intro entry hentry
    refine if_neg fun heq => h ?_
    exact List.mem_map.mpr ⟨entry, hentry, heq⟩
  rw [relist, List.map_congr_left hsame, List.map_id]

/-- Clearing a cell takes away its pile. -/
theorem count_clear (once : b.cells.Nodup) :
    (b.clear cell).count + (b.chargesAt cell).length = b.count := by
  obtain ⟨piles⟩ := b
  induction piles with
  | nil => rfl
  | cons entry rest ih =>
      obtain ⟨hnew, honce⟩ := List.nodup_cons.mp once
      have hrest := ih honce
      by_cases hcell : entry.1 = cell
      · subst hcell
        have hcharges : chargesAt ⟨entry :: rest⟩ entry.1 = entry.2 := by simp [chargesAt, pile?]
        rw [clear_cons_self, hcharges, clear_of_not_mem hnew, count_cons, Nat.add_comm]
      · have hcharges : chargesAt ⟨entry :: rest⟩ cell = chargesAt ⟨rest⟩ cell := by
          simp [chargesAt, pile?, hcell]
        rw [clear_cons_of_ne hcell, hcharges, count_cons, count_cons, Nat.add_assoc, hrest]

/-- Listing another pile for a cell puts it in place of the one that clearing takes away. -/
theorem count_relist (once : b.cells.Nodup) (listed : cell ∈ b.cells) (pile : List Float) :
    (b.relist cell pile).count = (b.clear cell).count + pile.length := by
  obtain ⟨piles⟩ := b
  induction piles with
  | nil => cases listed
  | cons entry rest ih =>
      obtain ⟨hnew, honce⟩ := List.nodup_cons.mp once
      by_cases hcell : entry.1 = cell
      · subst hcell
        have hrelist : relist ⟨entry :: rest⟩ entry.1 pile =
            ⟨(entry.1, pile) :: (relist ⟨rest⟩ entry.1 pile).piles⟩ := by simp [relist]
        rw [clear_cons_self, hrelist, count_cons, relist_of_not_mem hnew, clear_of_not_mem hnew,
          Nat.add_comm]
      · have hrest := ih honce ((List.mem_cons.mp listed).resolve_left (Ne.symm hcell))
        have hrelist : relist ⟨entry :: rest⟩ cell pile =
            ⟨entry :: (relist ⟨rest⟩ cell pile).piles⟩ := by simp [relist, hcell]
        rw [clear_cons_of_ne hcell, hrelist, count_cons, count_cons, hrest, Nat.add_assoc]

/-- **Taking a battery leaves one battery less.** -/
theorem Sound.count_take {left : Batteries} (hb : b.Sound grid)
    (h : b.take? cell = some (charge, left)) : left.count + 1 = b.count := by
  obtain ⟨pile, hpile, rfl⟩ := exists_of_take? h
  have hclear : (b.clear cell).count + (b.chargesAt cell).length = b.count :=
    count_clear hb.once
  rw [chargesAt, hpile, Option.getD_some, List.length_append, List.length_singleton] at hclear
  by_cases hempty : pile = []
  · rw [if_pos hempty, ← hclear, hempty, List.length_nil]
  · have listed : cell ∈ b.cells := List.mem_map.mpr ⟨_, mem_of_pile? hpile, rfl⟩
    rw [if_neg hempty, count_relist hb.once listed, ← hclear, Nat.add_assoc]

/-- A pile that is listed has a battery on top. -/
theorem Sound.getLast?_isSome (hb : b.Sound grid) (h : b.pile? cell = some pile) :
    pile.getLast?.isSome :=
  List.getLast?_isSome.mpr (hb.filled _ (mem_of_pile? h))

/-- **From a listed cell a battery can be taken.** -/
theorem Sound.take?_isSome (hb : b.Sound grid) : (b.take? cell).isSome = b.holds cell := by
  rw [take?, holds]
  rcases hpile : b.pile? cell with _ | pile
  · rfl
  · obtain ⟨last, hlast⟩ := Option.isSome_iff_exists.mp (hb.getLast?_isSome hpile)
    simp only [Option.bind_eq_bind, Option.bind_some, hlast]
    rfl

/-- A cell is listed exactly when a battery lies on it. -/
theorem Sound.holds_iff (hb : b.Sound grid) : b.holds cell ↔ b.chargesAt cell ≠ [] := by
  rw [holds, chargesAt]
  rcases hpile : b.pile? cell with _ | pile
  · simp
  · simpa using hb.filled _ (mem_of_pile? hpile)

end Batteries

end RobotControl
