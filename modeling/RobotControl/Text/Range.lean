/-!
Ranges of characters.

A class of characters is a list of ranges of code points. `mem_inRanges` says how to show that a
character belongs to one: name a range of the list and compare its ends.
-/

namespace RobotControl.Text

/-- The character lies in one of the ranges, both ends included. -/
def inRanges (ranges : List (Nat × Nat)) (c : Char) : Bool :=
  ranges.any fun range => range.1 ≤ c.toNat && c.toNat ≤ range.2

/-- A character between the ends of a listed range belongs to the class. -/
theorem mem_inRanges {ranges : List (Nat × Nat)} {first last : Nat} {c : Char}
    (h : (first, last) ∈ ranges) (above : first ≤ c.toNat) (below : c.toNat ≤ last) :
    inRanges ranges c := by
  simp only [inRanges, List.any_eq_true, Bool.and_eq_true, decide_eq_true_eq]
  exact ⟨(first, last), h, above, below⟩

end RobotControl.Text
