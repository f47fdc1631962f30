import Mathlib.Algebra.Order.Field.Power
import Mathlib.Data.Rat.Cast.Order
import Mathlib.Tactic.FieldSimp
import Mathlib.Tactic.Linarith
import Mathlib.Tactic.Ring
import RobotControl.Decimal.Dyadic

/-!
Rounding to the nearest double.

Arithmetic on doubles cuts an exact result off after some bits and remembers by a round bit and a
sticky bit what was cut off. Here the exact result is a rational number.

* `Represents`: what a mantissa with its two extra bits says of the exact number.
* `Represents.roundedMantissa`: the rounded mantissa is the whole number nearest to it.
* `Dyadic.Covers`: the numbers that are nearer to a double than to its neighbours.
* `Dyadic.roundWithAccuracy_of_covers`: a number is rounded to the double that covers it.
-/

namespace RobotControl.Decimal

open Float.Model
open Float.Model.UnpackedFloat

/-! ### Round bit and sticky bit -/

/-- The exact number is the mantissa, or it lies below, on or above the middle between the mantissa
and the next one. -/
def Represents (em : ExtendedMantissa) (y : ℚ) : Prop :=
  match em.roundBit, em.stickyBit with
  | false, false => y = em.mantissa
  | false, true => em.mantissa < y ∧ y < em.mantissa + 1 / 2
  | true, false => y = em.mantissa + 1 / 2
  | true, true => em.mantissa + 1 / 2 < y ∧ y < em.mantissa + 1

theorem Represents.bounds {em : ExtendedMantissa} {y : ℚ} (h : Represents em y) :
    em.mantissa ≤ y ∧ y < em.mantissa + 1 := by
  obtain ⟨m, r, s⟩ := em
  cases r <;> cases s <;> simp only [Represents] at h
  · subst h
    exact ⟨le_refl _, lt_add_one _⟩
  · exact ⟨h.1.le, by linarith⟩
  · subst h
    constructor <;> linarith
  · exact ⟨by linarith, h.2⟩

/-- Halving moves the last bit into the round bit and the round bit into the sticky bit. -/
theorem Represents.shiftRightOne {em : ExtendedMantissa} {y : ℚ} (h : Represents em y) :
    Represents em.shiftRightOne (y / 2) := by
  obtain ⟨m, r, s⟩ := em
  have hm : (m : ℚ) = 2 * (m / 2 : ℕ) + (m % 2 : ℕ) := by
    exact_mod_cast (Nat.div_add_mod m 2).symm
  rcases Nat.mod_two_eq_zero_or_one m with hodd | hodd <;>
    rw [hodd] at hm <;> cases r <;> cases s <;>
    simp [Represents, ExtendedMantissa.shiftRightOne, hodd] at h hm ⊢ <;>
    (try constructor) <;> linarith

theorem Represents.shiftRight {em : ExtendedMantissa} {y : ℚ} (h : Represents em y) (n : ℕ) :
    Represents (em >>> n) (y / 2 ^ n) := by
  induction n with
  | zero =>
      rw [pow_zero, div_one]
      exact h
  | succ n ih =>
      have hstep := ih.shiftRightOne
      rwa [div_div, ← pow_succ] at hstep

theorem le_of_cast_lt_add_one {m n : ℕ} (h : (m : ℚ) < n + 1) : m ≤ n :=
  Nat.lt_succ_iff.mp (by exact_mod_cast h)

/-- **The rounded mantissa is the whole number nearest to the exact one**; of two equally near it is
the even one. -/
theorem Represents.roundedMantissa {em : ExtendedMantissa} {y : ℚ} {n : ℕ} (h : Represents em y)
    (lower : (n : ℚ) - 1 / 2 ≤ y) (upper : y ≤ n + 1 / 2)
    (inside : n % 2 = 1 → (n : ℚ) - 1 / 2 < y ∧ y < n + 1 / 2) : em.roundedMantissa = n := by
  obtain ⟨m, r, s⟩ := em
  cases r <;> cases s <;> simp only [Represents] at h
  · have hle : m ≤ n := le_of_cast_lt_add_one (by linarith)
    have hge : n ≤ m := le_of_cast_lt_add_one (by linarith)
    exact le_antisymm hle hge
  · have hle : m ≤ n := le_of_cast_lt_add_one (by linarith [h.1])
    have hge : n ≤ m := le_of_cast_lt_add_one (by linarith [h.2])
    exact le_antisymm hle hge
  · -- The exact number is in the middle, so an odd `n` would not be nearest.
    have hle : m ≤ n := le_of_cast_lt_add_one (by linarith)
    have hge : n ≤ m + 1 := le_of_cast_lt_add_one (by push_cast; linarith)
    have heven : n % 2 = 0 := by
      by_contra hodd
      obtain ⟨hlow, hhigh⟩ := inside (by omega)
      have hlt : n < m + 1 := by
        have : (n : ℚ) < m + 1 := by linarith
        exact_mod_cast this
      have hgt : m < n := by
        have : (m : ℚ) < n := by linarith
        exact_mod_cast this
      omega
    show m + m % 2 = n
    omega
  · have hle : m + 1 ≤ n := le_of_cast_lt_add_one (by push_cast; linarith [h.1])
    have hge : n ≤ m + 1 := le_of_cast_lt_add_one (by push_cast; linarith [h.2])
    exact le_antisymm hle hge

/-! ### The numbers around a double -/

namespace Dyadic

/-- The double is finite and its mantissa has no bit to spare, unless its exponent is the least. -/
structure Canonical (d : Dyadic) : Prop where
  below : d.mantissa < 2 ^ 53
  normal : 2 ^ 52 ≤ d.mantissa ∨ d.exponent = leastExponent
  least : leastExponent ≤ d.exponent
  most : d.exponent ≤ 971

/-- Zero has one canonical form. -/
theorem Canonical.eq_zero {d : Dyadic} (hd : d.Canonical) (h : d.mantissa = 0) :
    d = ⟨0, leastExponent⟩ := by
  obtain ⟨m, e⟩ := d
  obtain rfl : m = 0 := h
  exact congrArg _ (hd.normal.resolve_left (by norm_num))

/-- The lower end of the numbers around a double, in quarters of its spacing. -/
def low (d : Dyadic) : ℕ :=
  4 * d.mantissa - (if d.mantissa = 2 ^ 52 ∧ d.exponent ≠ leastExponent then 1 else 2)

/-- The number is nearer to the double than to any other, or as near and the mantissa is even. -/
structure Covers (d : Dyadic) (x : ℚ) : Prop where
  lower : d.low * 2 ^ (d.exponent - 2) ≤ x
  upper : x ≤ (4 * d.mantissa + 2 : ℕ) * 2 ^ (d.exponent - 2)
  inside : d.mantissa % 2 = 1 →
    d.low * 2 ^ (d.exponent - 2) < x ∧ x < (4 * d.mantissa + 2 : ℕ) * 2 ^ (d.exponent - 2)

variable {d : Dyadic} {x : ℚ}

theorem two_zpow_pos (e : ℤ) : (0 : ℚ) < 2 ^ e :=
  zpow_pos (by norm_num) e

theorem quarter_spacing (e : ℤ) : (2 : ℚ) ^ (e - 2) = 2 ^ e / 4 := by
  rw [zpow_sub₀ (by norm_num : (2 : ℚ) ≠ 0)]
  norm_num

theorem low_lt (hpos : 0 < d.mantissa) : d.low < 4 * d.mantissa := by
  unfold low
  split <;> omega

/-- The lower end is half a spacing away, or a quarter. -/
theorem low_bounds (d : Dyadic) (hpos : 0 < d.mantissa) :
    (4 * d.mantissa : ℚ) - 2 ≤ d.low ∧
      (d.mantissa = 2 ^ 52 → d.exponent ≠ leastExponent → (d.low : ℚ) = 4 * d.mantissa - 1) := by
  unfold low
  split
  · rw [Nat.cast_sub (by omega)]
    push_cast
    exact ⟨by linarith, fun _ _ => rfl⟩
  · rename_i hwide
    rw [Nat.cast_sub (by omega)]
    push_cast
    exact ⟨le_refl _, fun hm he => absurd ⟨hm, he⟩ hwide⟩

/-- In units of the spacing, what a double covers is at most half a unit away from its mantissa. -/
theorem Covers.scaled (h : d.Covers x) (hpos : 0 < d.mantissa) :
    (d.mantissa : ℚ) - 1 / 2 ≤ x / 2 ^ d.exponent ∧ x / 2 ^ d.exponent ≤ d.mantissa + 1 / 2 ∧
      (d.mantissa % 2 = 1 → (d.mantissa : ℚ) - 1 / 2 < x / 2 ^ d.exponent ∧
        x / 2 ^ d.exponent < d.mantissa + 1 / 2) := by
  have hp := two_zpow_pos d.exponent
  have hlow := (low_bounds d hpos).1
  obtain ⟨hl, hu, hin⟩ := h
  rw [quarter_spacing] at hl hu hin
  push_cast at hu hin
  refine ⟨?_, ?_, ?_⟩
  · rw [le_div_iff₀ hp]
    nlinarith
  · rw [div_le_iff₀ hp]
    nlinarith
  · intro hodd
    obtain ⟨hl', hu'⟩ := hin hodd
    constructor
    · rw [lt_div_iff₀ hp]
      nlinarith
    · rw [div_lt_iff₀ hp]
      nlinarith

/-- Below a power of two the spacing halves. -/
theorem Covers.scaled_narrow (h : d.Covers x) (hm : d.mantissa = 2 ^ 52)
    (he : d.exponent ≠ leastExponent) : (d.mantissa : ℚ) - 1 / 4 ≤ x / 2 ^ d.exponent := by
  have hp := two_zpow_pos d.exponent
  have hlow := (low_bounds d (by omega)).2 hm he
  have hl := h.lower
  rw [quarter_spacing, hlow] at hl
  rw [le_div_iff₀ hp]
  nlinarith

/-! ### How many bits are cut off -/

theorem lt_two_zpow_totalExponent {m : ℕ} {e : ℤ} (h : x / 2 ^ e < m + 1) :
    x < 2 ^ totalExponent m e := by
  have hp := two_zpow_pos e
  have hm : (m : ℚ) + 1 ≤ 2 ^ (m.log2 + 1) := by exact_mod_cast Nat.lt_log2_self
  rw [div_lt_iff₀ hp] at h
  calc x < (m + 1) * 2 ^ e := h
    _ ≤ 2 ^ (m.log2 + 1) * 2 ^ e := mul_le_mul_of_nonneg_right hm hp.le
    _ = 2 ^ totalExponent m e := by
        rw [totalExponent, zpow_add₀ (by norm_num : (2 : ℚ) ≠ 0)]
        norm_cast

theorem two_zpow_totalExponent_le {m : ℕ} {e : ℤ} (hm : m ≠ 0) (h : m ≤ x / 2 ^ e) :
    2 ^ (totalExponent m e - 1) ≤ x := by
  have hp := two_zpow_pos e
  have hlog : (2 ^ m.log2 : ℚ) ≤ m := by exact_mod_cast Nat.log2_self_le hm
  rw [le_div_iff₀ hp] at h
  calc (2 : ℚ) ^ (totalExponent m e - 1) = 2 ^ m.log2 * 2 ^ e := by
        rw [totalExponent, add_sub_right_comm, add_sub_cancel_right,
          zpow_add₀ (by norm_num : (2 : ℚ) ≠ 0), zpow_natCast]
    _ ≤ m * 2 ^ e := mul_le_mul_of_nonneg_right hlog hp.le
    _ ≤ x := h

/-- The exponent to which doubles cut a number off. -/
theorem targetExponent_binary64 (total : ℤ) :
    Format.binary64.targetExponent total = max (total - 53) (-1074) := rfl

/-- The first cut keeps as many bits as the double has that covers the number, or one more just
below a power of two. -/
theorem Covers.target_cases {m : ℕ} {e : ℤ} (h : d.Covers x) (hc : d.Canonical)
    (hpos : 0 < d.mantissa) (hm : m ≤ x / 2 ^ e) (hm' : x / 2 ^ e < m + 1)
    (he : e ≤ Format.binary64.targetExponent (totalExponent m e)) :
    Format.binary64.targetExponent (totalExponent m e) = d.exponent ∨
      (Format.binary64.targetExponent (totalExponent m e) = d.exponent - 1 ∧
        d.mantissa = 2 ^ 52 ∧ d.exponent ≠ leastExponent ∧ x / 2 ^ d.exponent < 2 ^ 52) := by
  have hp := two_zpow_pos d.exponent
  have hone : (1 : ℚ) < 2 := by norm_num
  have hleast : leastExponent ≤ d.exponent := hc.least
  have hleastEq : leastExponent = -1074 := rfl
  obtain ⟨hlow, hhigh, -⟩ := h.scaled hpos
  have habove := lt_two_zpow_totalExponent hm'
  rw [targetExponent_binary64] at he ⊢
  -- If every bit is cut off, the exponent is least; else the bits bound the number from below.
  have hzero : m = 0 → totalExponent m e ≤ -1073 := by
    rintro rfl
    simp only [totalExponent, Nat.log2_zero] at he ⊢
    omega
  have hupper : ∀ k : ℤ, -1073 ≤ k + d.exponent → x / 2 ^ d.exponent < 2 ^ k →
      totalExponent m e ≤ k + d.exponent := by
    intro k hk hlt
    by_cases hm0 : m = 0
    · exact (hzero hm0).trans hk
    · have hbelow := two_zpow_totalExponent_le hm0 hm
      rw [div_lt_iff₀ hp, ← zpow_add₀ (by norm_num : (2 : ℚ) ≠ 0)] at hlt
      have := (zpow_lt_zpow_iff_right₀ hone).mp (hbelow.trans_lt hlt)
      omega
  have hlower : ∀ k : ℤ, 2 ^ k ≤ x / 2 ^ d.exponent → k + d.exponent < totalExponent m e := by
    intro k hle
    rw [le_div_iff₀ hp, ← zpow_add₀ (by norm_num : (2 : ℚ) ≠ 0)] at hle
    exact (zpow_lt_zpow_iff_right₀ hone).mp (hle.trans_lt habove)
  have hmant : (d.mantissa : ℚ) + 1 ≤ 2 ^ 53 := by exact_mod_cast hc.below
  have hmost : totalExponent m e ≤ 53 + d.exponent := by
    refine hupper 53 (by omega) ?_
    norm_num at hmant ⊢
    linarith
  by_cases hexp : d.exponent = leastExponent
  · left
    omega
  have hnormal : 2 ^ 52 ≤ d.mantissa := hc.normal.resolve_right hexp
  by_cases hfull : (2 : ℚ) ^ (52 : ℤ) ≤ x / 2 ^ d.exponent
  · left
    have := hlower 52 hfull
    omega
  · right
    rw [not_le] at hfull
    have hlt : (d.mantissa : ℚ) < (2 ^ 52 : ℕ) + 1 := by
      rw [zpow_ofNat] at hfull
      push_cast
      linarith
    have hle : d.mantissa ≤ 2 ^ 52 := le_of_cast_lt_add_one hlt
    have heq : d.mantissa = 2 ^ 52 := le_antisymm hle hnormal
    have hsome := hupper 52 (by omega) hfull
    have hless := hlower 51 (by rw [heq] at hlow; norm_num at hlow ⊢; linarith)
    exact ⟨by omega, heq, hexp, by exact_mod_cast hfull⟩

/-! ### Rounding -/

/-- Cutting off bits up to an exponent leaves the exact number in units of that exponent. -/
theorem represents_shiftToExponent {m : ℕ} {e t : ℤ} {accuracy : Accuracy}
    (h : Represents (.ofMantissaAndAccuracy m accuracy) (x / 2 ^ e)) (het : e ≤ t) :
    Represents (shiftToExponent m e accuracy t).1 (x / 2 ^ t) ∧
      (shiftToExponent m e accuracy t).2 = t := by
  have hshift : ((t - e).toNat : ℤ) = t - e := Int.toNat_of_nonneg (by omega)
  constructor
  · have hmore := h.shiftRight (t - e).toNat
    have hexp : x / 2 ^ e / 2 ^ (t - e).toNat = x / 2 ^ t := by
      rw [div_div, ← zpow_natCast, hshift, ← zpow_add₀ (by norm_num : (2 : ℚ) ≠ 0),
        add_sub_cancel]
    rwa [hexp] at hmore
  · show e + ((t - e).toNat : ℤ) = t
    omega

theorem shiftToTargetExponent_of_le {m : ℕ} {e : ℤ}
    (h : Format.binary64.targetExponent (totalExponent m e) ≤ e) :
    shiftToTargetExponent Format.binary64 m e .exact = (⟨m, false, false⟩, e) := by
  have hzero : (Format.binary64.targetExponent (totalExponent m e) - e).toNat = 0 := by omega
  rw [shiftToTargetExponent, shiftToExponent, hzero]
  simp only [Nat.cast_zero, add_zero]
  rfl

theorem accuracy_bounds {m : ℕ} {accuracy : Accuracy} {y : ℚ}
    (h : Represents (.ofMantissaAndAccuracy m accuracy) y) : m ≤ y ∧ y < m + 1 := by
  have hbounds := h.bounds
  cases accuracy with
  | exact => exact hbounds
  | inexact order => cases order <;> exact hbounds

/-- A mantissa that rounding has made one bit longer is shortened again. -/
theorem shiftToTargetExponent_two_pow {e : ℤ} (h : leastExponent < e) :
    shiftToTargetExponent Format.binary64 (2 ^ 53) (e - 1) .exact =
      (⟨2 ^ 52, false, false⟩, e) := by
  have hleast : leastExponent = -1074 := rfl
  have htarget : Format.binary64.targetExponent (totalExponent (2 ^ 53) (e - 1)) = e := by
    rw [targetExponent_binary64, totalExponent, Nat.log2_two_pow]
    omega
  have hone : (e - (e - 1)).toNat = 1 := by omega
  rw [shiftToTargetExponent, htarget, shiftToExponent, hone]
  simp only [Nat.cast_one, sub_add_cancel]
  rfl

/-- Rounding cuts bits off, rounds, and cuts off the bit that rounding may have added. -/
theorem roundWithAccuracy_eq {sign : Sign} {m n k : ℕ} {e e₁ e₂ : ℤ} {accuracy : Accuracy}
    {em : ExtendedMantissa} (hk : 0 < k)
    (hcut : shiftToTargetExponent Format.binary64 m e accuracy = (em, e₁))
    (hround : em.roundedMantissa = n)
    (hagain : shiftToTargetExponent Format.binary64 n e₁ .exact = (⟨k, false, false⟩, e₂)) :
    roundWithAccuracy Format.binary64 sign m e accuracy = .finite sign k e₂ hk := by
  unfold roundWithAccuracy
  rw [hcut]
  dsimp only
  rw [hround, hagain]
  exact dif_neg hk.ne'

/-- **A number is rounded to the double that covers it.** -/
theorem roundWithAccuracy_of_covers {sign : Sign} {m : ℕ} {e : ℤ} {accuracy : Accuracy}
    (h : d.Covers x) (hc : d.Canonical) (hpos : 0 < d.mantissa)
    (hrep : Represents (.ofMantissaAndAccuracy m accuracy) (x / 2 ^ e))
    (he : e ≤ Format.binary64.targetExponent (totalExponent m e)) :
    roundWithAccuracy Format.binary64 sign m e accuracy =
      .finite sign d.mantissa d.exponent hpos := by
  obtain ⟨hfirst, hexp⟩ := represents_shiftToExponent hrep he
  obtain ⟨hm, hm'⟩ := accuracy_bounds hrep
  obtain ⟨hlow, hhigh, hinside⟩ := h.scaled hpos
  rcases h.target_cases hc hpos hm hm' he with htarget | ⟨htarget, hmant, hnot, hbelow⟩
  · rw [htarget] at hfirst hexp
    have hcut : shiftToTargetExponent Format.binary64 m e accuracy =
        ((shiftToExponent m e accuracy d.exponent).1, d.exponent) := by
      rw [shiftToTargetExponent, htarget]
      exact Prod.ext rfl hexp
    have hkeep : Format.binary64.targetExponent (totalExponent d.mantissa d.exponent) ≤
        d.exponent := by
      have hlog : d.mantissa.log2 < 53 := (Nat.log2_lt hpos.ne').mpr hc.below
      have hleast : -1074 ≤ d.exponent := hc.least
      rw [targetExponent_binary64, totalExponent]
      omega
    exact roundWithAccuracy_eq hpos hcut (hfirst.roundedMantissa hlow hhigh hinside)
      (shiftToTargetExponent_of_le hkeep)
  · -- The number lies just below a power of two and is rounded up to it.
    rw [htarget] at hfirst hexp
    have hcut : shiftToTargetExponent Format.binary64 m e accuracy =
        ((shiftToExponent m e accuracy (d.exponent - 1)).1, d.exponent - 1) := by
      rw [shiftToTargetExponent, htarget]
      exact Prod.ext rfl hexp
    have hnarrow := h.scaled_narrow hmant hnot
    have hdouble : x / 2 ^ (d.exponent - 1) = 2 * (x / 2 ^ d.exponent) := by
      rw [zpow_sub₀ (by norm_num : (2 : ℚ) ≠ 0), zpow_one, div_div_eq_mul_div]
      ring
    rw [hdouble] at hfirst
    rw [hmant] at hnarrow
    push_cast at hnarrow
    have hround := hfirst.roundedMantissa (n := 2 ^ 53) (by push_cast; linarith)
      (by push_cast; linarith) (by norm_num)
    have hlt : leastExponent < d.exponent := lt_of_le_of_ne hc.least (Ne.symm hnot)
    have hresult : roundWithAccuracy Format.binary64 sign m e accuracy =
        .finite sign (2 ^ 52) d.exponent (by norm_num) :=
      roundWithAccuracy_eq (by norm_num) hcut hround
        (shiftToTargetExponent_two_pow hlt)
    rw [hresult, UnpackedFloat.finite.injEq]
    exact ⟨rfl, hmant.symm, rfl⟩

end Dyadic

end RobotControl.Decimal
