import RobotControl.Decimal.Shortest
import RobotControl.Proofs.Decimal.Nearest

/-!
The shortest decimal stays with its double.

The ends of a window are those of the numbers that its double covers, written as whole numbers of
one power of ten. Whichever candidate the search takes, it lies between them.

* `Dyadic.covers_of_accepts`: a candidate that a window accepts is covered by its double.
* `Dyadic.exists_accepted`: the shortest decimal is a candidate that the window accepts.
-/

namespace RobotControl.Decimal

variable {d : Dyadic}

/-! ### Windows -/

namespace Window

theorem accepts_iff {w : Window} {candidate : ℕ} :
    w.accepts candidate ↔ w.low ≤ candidate ∧ candidate ≤ w.high ∧
      (w.closed = false → w.low < candidate ∧ candidate < w.high) := by
  unfold accepts
  cases w.closed
  · simp only [Bool.false_eq_true, if_false, Bool.and_eq_true, decide_eq_true_iff, forall_const]
    omega
  · simp

theorem accepts_of_nearest? {w : Window} {tie : Tie} {unit candidate : ℕ}
    (h : w.nearest? tie unit = some candidate) : w.accepts candidate := by
  unfold nearest? at h
  dsimp only at h
  split at h
  · cases h
  · rename_i hdown _
    rwa [← Option.some.inj h]
  · rename_i _ hup
    rwa [← Option.some.inj h]
  · rename_i hdown hup
    split at h
    · rwa [← Option.some.inj h]
    · split at h
      · rwa [← Option.some.inj h]
      · split at h
        · rwa [← Option.some.inj h]
        · split at h <;> rwa [← Option.some.inj h]

end Window

namespace Dyadic

/-- A window holds quarters of the spacing, each of them `scale` units of a power of ten. -/
theorem exists_scale (d : Dyadic) :
    ∃ scale : ℕ, 0 < scale ∧ (2 : ℚ) ^ (d.exponent - 2) = scale * 10 ^ d.window.exponent ∧
      d.window.low = d.low * scale ∧ d.window.value = 4 * d.mantissa * scale ∧
      d.window.high = (4 * d.mantissa + 2) * scale ∧
      d.window.closed = (d.mantissa % 2 == 0) := by
  unfold window
  dsimp only
  split
  · rename_i hquarter
    refine ⟨2 ^ (d.exponent - 2).toNat, by positivity, ?_, rfl, rfl, rfl, rfl⟩
    have hnat : ((d.exponent - 2).toNat : ℤ) = d.exponent - 2 := Int.toNat_of_nonneg hquarter
    rw [zpow_zero, mul_one, Nat.cast_pow, Nat.cast_ofNat, ← zpow_natCast, hnat]
  · rename_i hquarter
    refine ⟨5 ^ (-(d.exponent - 2)).toNat, by positivity, ?_, rfl, rfl, rfl, rfl⟩
    have hnat : ((-(d.exponent - 2)).toNat : ℤ) = -(d.exponent - 2) :=
      Int.toNat_of_nonneg (by omega)
    have hten : (10 : ℚ) = 5 * 2 := by norm_num
    rw [Nat.cast_pow, Nat.cast_ofNat, ← zpow_natCast, hnat, hten, mul_zpow, ← mul_assoc,
      ← zpow_add₀ (by norm_num : (5 : ℚ) ≠ 0), neg_add_cancel, zpow_zero, one_mul]

/-- **A candidate that a window accepts is covered by its double.** -/
theorem covers_of_accepts {n : ℕ} (h : d.window.accepts n) :
    d.Covers (n * 10 ^ d.window.exponent) := by
  obtain ⟨scale, -, hscale, hlow, -, hhigh, hclosed⟩ := d.exists_scale
  have hten : (0 : ℚ) < 10 ^ d.window.exponent := zpow_pos (by norm_num) _
  obtain ⟨hl, hu, hopen⟩ := Window.accepts_iff.mp h
  rw [hlow] at hl hopen
  rw [hhigh] at hu hopen
  have hlower : (d.low : ℚ) * 2 ^ (d.exponent - 2) =
      (d.low * scale : ℕ) * 10 ^ d.window.exponent := by
    rw [hscale]
    push_cast
    ring
  have hupper : ((4 * d.mantissa + 2 : ℕ) : ℚ) * 2 ^ (d.exponent - 2) =
      ((4 * d.mantissa + 2) * scale : ℕ) * 10 ^ d.window.exponent := by
    rw [hscale]
    push_cast
    ring
  constructor
  · rw [hlower]
    exact mul_le_mul_of_nonneg_right (by exact_mod_cast hl) hten.le
  · rw [hupper]
    exact mul_le_mul_of_nonneg_right (by exact_mod_cast hu) hten.le
  · intro hodd
    obtain ⟨hl', hu'⟩ := hopen (by rw [hclosed, hodd]; rfl)
    rw [hlower, hupper]
    exact ⟨mul_lt_mul_of_pos_right (by exact_mod_cast hl') hten,
      mul_lt_mul_of_pos_right (by exact_mod_cast hu') hten⟩

/-- A window accepts its own double. -/
theorem accepts_value (hpos : 0 < d.mantissa) : d.window.accepts d.window.value := by
  obtain ⟨scale, hscale, -, hlow, hvalue, hhigh, -⟩ := d.exists_scale
  have hbelow : d.low * scale < 4 * d.mantissa * scale :=
    Nat.mul_lt_mul_of_pos_right (low_lt hpos) hscale
  have habove : 4 * d.mantissa * scale < (4 * d.mantissa + 2) * scale :=
    Nat.mul_lt_mul_of_pos_right (by omega) hscale
  rw [Window.accepts_iff, hlow, hvalue, hhigh]
  exact ⟨hbelow.le, habove.le, fun _ => ⟨hbelow, habove⟩⟩

/-- **The shortest decimal is a candidate that the window accepts.** -/
theorem exists_accepted (tie : Tie) (hpos : 0 < d.mantissa) :
    ∃ n, d.window.accepts n ∧ d.shortest tie = Numeral.ofNat n d.window.exponent := by
  refine ⟨_, ?_, rfl⟩
  cases hfound : (List.range enoughDigits).findSome? fun n =>
      d.window.nearest? tie (10 ^ ((Nat.toDigits 10 d.window.value).length - (n + 1))) with
  | none => exact accepts_value hpos
  | some candidate =>
      obtain ⟨n, -, hn⟩ := List.exists_of_findSome?_eq_some hfound
      exact Window.accepts_of_nearest? hn

end Dyadic

end RobotControl.Decimal
