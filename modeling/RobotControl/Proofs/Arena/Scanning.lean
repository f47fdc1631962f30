import RobotControl.Arena.Dynamics

/-!
Cells that follow one another on a grid.

* `Grid.contains_of_neighbour`: a step over the grid stays on it.
* `Grid.succ_lt_of_contains`: the number one past a coordinate on a grid is a 32-bit word.
* `Grid.ahead`: the cells that a scan in a direction looks at.
* `Grid.ne_of_mem_ahead`: a scan does not look at the cell where it starts.
* `Arena.firstOccupiedFrom_eq_find?`: the first occupied cell is found among these cells.
-/

namespace RobotControl

namespace Grid

variable {g : Grid} {c d : Cell} {facing : Facing}

theorem contains_iff : g.contains c ↔ c.x < g.width.toNat ∧ c.y < g.height.toNat := by
  rw [contains, Bool.and_eq_true, decide_eq_true_iff, decide_eq_true_iff]

/-- One past a coordinate on a grid is at most the size of the grid, which is a 32-bit word. -/
theorem succ_lt_of_contains (h : g.contains c) :
    c.x + 1 < UInt32.size ∧ c.y + 1 < UInt32.size := by
  obtain ⟨hx, hy⟩ := contains_iff.mp h
  have hw := g.width.toNat_lt
  have hh := g.height.toNat_lt
  have hsize : UInt32.size = 4294967296 := rfl
  omega

theorem contains_of_neighbour (hc : g.contains c) (h : g.neighbour c facing = some d) :
    g.contains d := by
  rw [contains_iff] at hc ⊢
  cases facing <;> simp only [neighbour, Option.ite_none_left_eq_some, Option.ite_none_right_eq_some,
    Option.some.injEq] at h <;> obtain ⟨hn, rfl⟩ := h <;> dsimp only <;> omega

/-- A step towards the edge shortens the way to it by one, and there is no step on the edge. -/
theorem reach_of_neighbour (facing : Facing) (hc : g.contains c) :
    (g.neighbour c facing = none ∧ g.reach c facing = 0) ∨
      ∃ d, g.neighbour c facing = some d ∧ g.reach c facing = g.reach d facing + 1 := by
  obtain ⟨hx, hy⟩ := contains_iff.mp hc
  cases facing with
  | up =>
      rw [neighbour, reach]
      split
      · exact .inl ⟨rfl, by omega⟩
      · exact .inr ⟨_, rfl, by dsimp only [reach]; omega⟩
  | right =>
      rw [neighbour, reach]
      split
      · exact .inr ⟨_, rfl, by dsimp only [reach]; omega⟩
      · exact .inl ⟨rfl, by omega⟩
  | down =>
      rw [neighbour, reach]
      split
      · exact .inr ⟨_, rfl, by dsimp only [reach]; omega⟩
      · exact .inl ⟨rfl, by omega⟩
  | left =>
      rw [neighbour, reach]
      split
      · exact .inl ⟨rfl, by omega⟩
      · exact .inr ⟨_, rfl, by dsimp only [reach]; omega⟩

/-- The cells that a scan looks at, the nearest first: at most `cells` of them, and none behind the
edge of the grid. -/
def ahead (g : Grid) (facing : Facing) : (cells : Nat) → Cell → List Cell
  | 0, _ => []
  | cells + 1, c => match g.neighbour c facing with
    | none => []
    | some next => next :: g.ahead facing cells next

theorem ahead_of_none (h : g.neighbour c facing = none) (cells : Nat) :
    g.ahead facing cells c = [] := by
  cases cells with
  | zero => rfl
  | succ cells => rw [ahead, h]

theorem ahead_of_some (h : g.neighbour c facing = some d) (cells : Nat) :
    g.ahead facing (cells + 1) c = d :: g.ahead facing cells d := by
  rw [ahead, h]

/-- A scan stays on the grid. -/
theorem contains_of_mem_ahead {cells : Nat} (hc : g.contains c)
    (h : d ∈ g.ahead facing cells c) : g.contains d := by
  induction cells generalizing c with
  | zero => cases h
  | succ cells ih =>
      rcases hn : g.neighbour c facing with _ | next
      · rw [ahead_of_none hn] at h
        cases h
      · have hnext := contains_of_neighbour hc hn
        rw [ahead_of_some hn] at h
        rcases List.mem_cons.mp h with rfl | h
        · exact hnext
        · exact ih hnext h

/-- What a scan looks at is nearer to the edge than where it starts. -/
theorem reach_lt_of_mem_ahead {cells : Nat} (hc : g.contains c)
    (h : d ∈ g.ahead facing cells c) : g.reach d facing < g.reach c facing := by
  induction cells generalizing c with
  | zero => cases h
  | succ cells ih =>
      rcases reach_of_neighbour facing hc with ⟨hn, -⟩ | ⟨next, hn, hr⟩
      · rw [ahead_of_none hn] at h
        cases h
      · rw [ahead_of_some hn] at h
        rcases List.mem_cons.mp h with rfl | h
        · omega
        · have hd := ih (contains_of_neighbour hc hn) h
          omega

/-- A scan does not look at the cell where it starts. -/
theorem ne_of_mem_ahead {cells : Nat} (hc : g.contains c) (h : d ∈ g.ahead facing cells c) :
    d ≠ c := by
  rintro rfl
  exact absurd (reach_lt_of_mem_ahead hc h) (Nat.lt_irrefl _)

end Grid

namespace Arena

/-- The first occupied cell is found among the cells that are scanned. -/
theorem firstOccupiedFrom_eq_find? (a : Arena) (facing : Facing) (cells : Nat) (c : Cell) :
    a.firstOccupiedFrom facing cells c = (a.grid.ahead facing cells c).find? a.occupied := by
  induction cells generalizing c with
  | zero => rfl
  | succ cells ih =>
      rw [firstOccupiedFrom]
      rcases hn : a.grid.neighbour c facing with _ | next
      · rw [Grid.ahead_of_none hn]
        rfl
      · rw [Grid.ahead_of_some hn, List.find?_cons]
        dsimp only
        by_cases ho : a.occupied next
        · rw [if_pos ho, ho]
        · rw [if_neg ho, ih]
          simp only [ho]

/-- The cells ahead of the robot, up to the edge of the grid. -/
def cellsAhead (a : Arena) : List Cell :=
  a.grid.ahead a.robot.facing (a.grid.reach a.robot.cell a.robot.facing) a.robot.cell

theorem firstOccupiedAhead_eq_find? (a : Arena) :
    a.firstOccupiedAhead = a.cellsAhead.find? a.occupied :=
  a.firstOccupiedFrom_eq_find? _ _ _

/-- The first occupied cell ahead is among the cells ahead. -/
theorem mem_cellsAhead_of_firstOccupiedAhead {a : Arena} {cell : Cell}
    (h : a.firstOccupiedAhead = some cell) : cell ∈ a.cellsAhead := by
  rw [firstOccupiedAhead_eq_find?] at h
  exact List.mem_of_find?_eq_some h

end Arena

end RobotControl
