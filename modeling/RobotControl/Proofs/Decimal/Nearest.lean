import RobotControl.Decimal.Literal
import RobotControl.Proofs.Decimal.Bits

/-!
The nearest double.

A decimal is multiplied or divided by a power of ten with a single rounding. Short decimals go
through arithmetic on doubles, since both numbers are doubles then; the others go through whole
numbers of any size.

* `mul_of_covers`, `div_of_covers`: a product or a quotient is the double that covers it.
* `IsWhole`: a double that is a whole number, with a mantissa of full length.
* `IsWhole.mul`, `IsWhole.div`: products and quotients of such doubles.
* `nearestFloat_of_covers`: a decimal that a double covers names this double.
-/

namespace RobotControl.Decimal

open Float.Model
open Float.Model.UnpackedFloat

variable {d : Dyadic}

/-! ### Products and quotients -/

theorem signed_of_pos (hpos : 0 < d.mantissa) :
    d.signed false = .finite .positive d.mantissa d.exponent hpos :=
  d.signed_pos false hpos

/-- **A product is the double that covers it**, if its mantissa is long enough. -/
theorem mul_of_covers {m₁ m₂ : ℕ} {e₁ e₂ : ℤ} (h₁ : 0 < m₁) (h₂ : 0 < m₂)
    (hlong : 2 ^ 52 ≤ m₁ * m₂) (hc : d.Canonical) (hpos : 0 < d.mantissa)
    (h : d.Covers (m₁ * 2 ^ e₁ * (m₂ * 2 ^ e₂))) :
    UnpackedFloat.mul Format.binary64 (.finite .positive m₁ e₁ h₁) (.finite .positive m₂ e₂ h₂) =
      d.signed false := by
  have hlog : 52 ≤ (m₁ * m₂).log2 := (Nat.le_log2 (by positivity)).mpr hlong
  have hrep : Represents (.ofMantissaAndAccuracy (m₁ * m₂) .exact)
      (m₁ * 2 ^ e₁ * (m₂ * 2 ^ e₂) / 2 ^ (e₁ + e₂)) := by
    show _ = ((m₁ * m₂ : ℕ) : ℚ)
    rw [zpow_add₀ two_ne_zero]
    field_simp
    push_cast
    ring
  rw [signed_of_pos hpos]
  refine Dyadic.roundWithAccuracy_of_covers h hc hpos hrep ?_
  rw [Dyadic.targetExponent_binary64, totalExponent]
  omega

/-- The remainder of a division says where the quotient lies. -/
theorem represents_accuracyOfFraction {m n : ℕ} (hn : 0 < n) :
    Represents (.ofMantissaAndAccuracy (m / n) (accuracyOfFraction (m % n) n)) (m / n : ℚ) := by
  have hn' : (0 : ℚ) < n := by exact_mod_cast hn
  have hdiv : (m / n : ℚ) = (m / n : ℕ) + (m % n : ℕ) / n := by
    have hm : (m : ℚ) = n * (m / n : ℕ) + (m % n : ℕ) := by
      exact_mod_cast (Nat.div_add_mod m n).symm
    field_simp
    linarith
  have hlt : (m % n : ℕ) / (n : ℚ) < 1 := by
    rw [div_lt_iff₀ hn', one_mul]
    exact_mod_cast Nat.mod_lt m hn
  rw [hdiv]
  unfold accuracyOfFraction
  split
  · rename_i hzero
    rw [hzero, Nat.cast_zero, zero_div, add_zero]
    rfl
  · rename_i hsome
    have hpos : (0 : ℚ) < (m % n : ℕ) / (n : ℚ) :=
      div_pos (by exact_mod_cast Nat.pos_of_ne_zero hsome) hn'
    cases hcmp : compare (2 * (m % n)) n with
    | lt =>
        have hhalf : (m % n : ℕ) / (n : ℚ) < 1 / 2 := by
          rw [div_lt_iff₀ hn']
          have : (2 * (m % n : ℕ) : ℚ) < n := by exact_mod_cast Nat.compare_eq_lt.mp hcmp
          linarith
        show ((m / n : ℕ) : ℚ) < _ ∧ _ < ((m / n : ℕ) : ℚ) + 1 / 2
        exact ⟨by linarith, by linarith⟩
    | eq =>
        have hhalf : (m % n : ℕ) / (n : ℚ) = 1 / 2 := by
          rw [div_eq_iff hn'.ne']
          have : (2 * (m % n : ℕ) : ℚ) = n := by exact_mod_cast Nat.compare_eq_eq.mp hcmp
          linarith
        rw [hhalf]
        rfl
    | gt =>
        have hhalf : 1 / 2 < (m % n : ℕ) / (n : ℚ) := by
          rw [lt_div_iff₀ hn']
          have : (n : ℚ) < 2 * (m % n : ℕ) := by exact_mod_cast Nat.compare_eq_gt.mp hcmp
          linarith
        show ((m / n : ℕ) : ℚ) + 1 / 2 < _ ∧ _ < ((m / n : ℕ) : ℚ) + 1
        exact ⟨by linarith, by linarith⟩

/-- The dividend is made so long that the quotient has a bit to spare, unless its exponent is the
least one already. -/
theorem le_targetExponent_quotient {m₁ m₂ : ℕ} {e t : ℤ} (h₁ : 0 < m₁) (h₂ : 0 < m₂) (ht : t ≤ e)
    (hmin : t ≤ Format.binary64.targetExponent (m₁.log2 - m₂.log2 + e)) :
    t ≤ Format.binary64.targetExponent (totalExponent ((m₁ <<< (e - t).toNat) / m₂) t) := by
  rw [Dyadic.targetExponent_binary64] at hmin ⊢
  rw [totalExponent]
  by_cases hleast : t ≤ -1074
  · exact hleast.trans (le_max_right _ _)
  · have hshift : m₂.log2 + 53 ≤ m₁.log2 + (e - t).toNat := by omega
    have hlong : 2 ^ 52 ≤ (m₁ <<< (e - t).toNat) / m₂ := by
      rw [Nat.le_div_iff_mul_le h₂, Nat.shiftLeft_eq]
      calc 2 ^ 52 * m₂ ≤ 2 ^ 52 * 2 ^ (m₂.log2 + 1) :=
            Nat.mul_le_mul_left _ Nat.lt_log2_self.le
        _ = 2 ^ (m₂.log2 + 53) := by rw [← pow_add]; congr 1; omega
        _ ≤ 2 ^ (m₁.log2 + (e - t).toNat) := Nat.pow_le_pow_right (by norm_num) hshift
        _ = 2 ^ m₁.log2 * 2 ^ (e - t).toNat := pow_add _ _ _
        _ ≤ m₁ * 2 ^ (e - t).toNat := Nat.mul_le_mul_right _ (Nat.log2_self_le h₁.ne')
    have hlog := (Nat.le_log2 (by omega)).mpr hlong
    omega

/-- **A quotient is the double that covers it.** -/
theorem div_of_covers {m₁ m₂ : ℕ} {e₁ e₂ : ℤ} (h₁ : 0 < m₁) (h₂ : 0 < m₂)
    (hc : d.Canonical) (hpos : 0 < d.mantissa)
    (h : d.Covers (m₁ * 2 ^ e₁ / (m₂ * 2 ^ e₂))) :
    UnpackedFloat.div Format.binary64 (.finite .positive m₁ e₁ h₁) (.finite .positive m₂ e₂ h₂) =
      d.signed false := by
  obtain ⟨t, ht⟩ : ∃ t, t = min (e₁ - e₂)
      (Format.binary64.targetExponent (totalExponent m₁ e₁ - totalExponent m₂ e₂)) := ⟨_, rfl⟩
  have htotal : totalExponent m₁ e₁ - totalExponent m₂ e₂ = m₁.log2 - m₂.log2 + (e₁ - e₂) := by
    unfold totalExponent
    ring
  have hle : t ≤ e₁ - e₂ := ht ▸ min_le_left _ _
  have hshift : ((e₁ - e₂ - t).toNat : ℤ) = e₁ - e₂ - t := Int.toNat_of_nonneg (by omega)
  have hquotient : m₁ * 2 ^ e₁ / (m₂ * 2 ^ e₂) / 2 ^ t =
      ((m₁ <<< (e₁ - e₂ - t).toNat : ℕ) / m₂ : ℚ) := by
    have hm₂ : (m₂ : ℚ) ≠ 0 := by exact_mod_cast h₂.ne'
    rw [Nat.shiftLeft_eq, Nat.cast_mul, Nat.cast_pow, Nat.cast_ofNat, ← zpow_natCast, hshift,
      zpow_sub₀ two_ne_zero, zpow_sub₀ two_ne_zero]
    field_simp
  have hrep := represents_accuracyOfFraction (m := m₁ <<< (e₁ - e₂ - t).toNat) h₂
  rw [← hquotient] at hrep
  have hkeep := le_targetExponent_quotient h₁ h₂ hle
    (by rw [← htotal, ht]; exact min_le_right _ _)
  rw [signed_of_pos hpos, ← Dyadic.roundWithAccuracy_of_covers h hc hpos hrep hkeep, ht]
  rfl

/-! ### Whole numbers as doubles -/

namespace Dyadic

/-- The number that a mantissa and an exponent stand for. -/
def value (d : Dyadic) : ℚ :=
  d.mantissa * 2 ^ d.exponent

/-- A whole number, cut off after 53 bits. -/
def ofNat (n : ℕ) : Dyadic :=
  ⟨n * 2 ^ 52 / 2 ^ n.log2, n.log2 - 52⟩

theorem covers_value (hpos : 0 < d.mantissa) : d.Covers d.value := by
  have hp := two_zpow_pos d.exponent
  have hlow : (d.low : ℚ) < 4 * d.mantissa := by exact_mod_cast low_lt hpos
  have hbelow : (d.low : ℚ) * 2 ^ (d.exponent - 2) < d.value := by
    rw [quarter_spacing, value]
    nlinarith
  have habove : d.value < (4 * d.mantissa + 2 : ℕ) * 2 ^ (d.exponent - 2) := by
    rw [quarter_spacing, value]
    push_cast
    nlinarith
  exact ⟨hbelow.le, habove.le, fun _ => ⟨hbelow, habove⟩⟩

theorem two_pow_le_ofNat {n : ℕ} (hn : 0 < n) : 2 ^ 52 ≤ (ofNat n).mantissa := by
  unfold ofNat
  rw [Nat.le_div_iff_mul_le (by positivity), mul_comm]
  exact Nat.mul_le_mul_right _ (Nat.log2_self_le hn.ne')

theorem canonical_ofNat {n : ℕ} (hn : 0 < n) (hlog : n.log2 ≤ 1000) : (ofNat n).Canonical where
  below := by
    unfold ofNat
    rw [Nat.div_lt_iff_lt_mul (by positivity)]
    have hlt : n < 2 ^ (n.log2 + 1) := Nat.lt_log2_self
    rw [pow_succ] at hlt
    omega
  normal := .inl (two_pow_le_ofNat hn)
  least := by
    dsimp only [ofNat, leastExponent]
    omega
  most := by
    dsimp only [ofNat]
    omega

/-- Nothing is cut off if enough powers of two divide the number. -/
theorem value_ofNat {n : ℕ} (h : 2 ^ n.log2 ∣ n * 2 ^ 52) : (ofNat n).value = n := by
  obtain ⟨k, hk⟩ := h
  have hk' : (n : ℚ) * 2 ^ 52 = 2 ^ n.log2 * k := by exact_mod_cast hk
  show ((n * 2 ^ 52 / 2 ^ n.log2 : ℕ) : ℚ) * 2 ^ ((n.log2 : ℤ) - 52) = n
  rw [hk, Nat.mul_div_cancel_left _ (by positivity), zpow_sub₀ two_ne_zero, zpow_natCast,
    mul_div_assoc', mul_comm, ← hk', zpow_ofNat]
  field_simp

end Dyadic

/-- The double is this whole number and its mantissa has no bit to spare. -/
def IsWhole (x : Float) (n : ℕ) : Prop :=
  ∃ a : Dyadic, x = ofDyadic false a ∧ a.Canonical ∧ 2 ^ 52 ≤ a.mantissa ∧ a.value = n

theorem isWhole_ofNat {n : ℕ} (hn : 0 < n) (hlog : n.log2 ≤ 1000)
    (h : 2 ^ n.log2 ∣ n * 2 ^ 52) : IsWhole (ofDyadic false (.ofNat n)) n :=
  ⟨.ofNat n, rfl, Dyadic.canonical_ofNat hn hlog, Dyadic.two_pow_le_ofNat hn, Dyadic.value_ofNat h⟩

theorem two_pow_le_shiftLeft {n : ℕ} (hn : 0 < n) (hlog : n.log2 ≤ 52) :
    2 ^ 52 ≤ n <<< (52 - n.log2) := by
  rw [Nat.shiftLeft_eq]
  calc 2 ^ 52 = 2 ^ n.log2 * 2 ^ (52 - n.log2) := by rw [← pow_add]; congr 1; omega
    _ ≤ n * 2 ^ (52 - n.log2) := Nat.mul_le_mul_right _ (Nat.log2_self_le hn.ne')

/-- Converting a whole number of at most 53 bits rounds nothing. -/
theorem unpackedOfNat_eq {n : ℕ} (hn : 0 < n) (hlog : n.log2 ≤ 52) :
    UnpackedFloat.ofNat Format.binary64 n = (Dyadic.ofNat n).signed false := by
  have hpos : 0 < (Dyadic.ofNat n).mantissa :=
    (by norm_num : 0 < 2 ^ 52).trans_le (Dyadic.two_pow_le_ofNat hn)
  have hcovers := Dyadic.covers_value hpos
  rw [Dyadic.value_ofNat (Dvd.dvd.mul_left (Nat.pow_dvd_pow 2 hlog) n)] at hcovers
  have hrep : Represents (.ofMantissaAndAccuracy (n <<< (52 - n.log2)) .exact)
      (n / 2 ^ (0 - (52 - n.log2 : ℕ) : ℤ)) := by
    show _ = ((n <<< (52 - n.log2) : ℕ) : ℚ)
    rw [zero_sub, zpow_neg, zpow_natCast, div_inv_eq_mul, Nat.shiftLeft_eq]
    push_cast
    rfl
  have hkeep : (0 - (52 - n.log2 : ℕ) : ℤ) ≤ Format.binary64.targetExponent
      (totalExponent (n <<< (52 - n.log2)) (0 - (52 - n.log2 : ℕ))) := by
    have hlong := two_pow_le_shiftLeft hn hlog
    have hlog' := (Nat.le_log2 (by omega)).mpr hlong
    rw [Dyadic.targetExponent_binary64, totalExponent]
    omega
  have hgt : compare (n : ℤ) 0 = .gt := Int.compare_eq_gt.mpr (by omega)
  have htarget : Format.binary64.targetExponent (totalExponent n 0) = n.log2 - 52 := by
    rw [Dyadic.targetExponent_binary64, totalExponent]
    omega
  have hshift : (0 - ((n.log2 : ℤ) - 52)).toNat = 52 - n.log2 := by omega
  rw [signed_of_pos hpos, ← Dyadic.roundWithAccuracy_of_covers hcovers
    (Dyadic.canonical_ofNat hn (by omega)) hpos hrep hkeep]
  show UnpackedFloat.normalize Format.binary64 n 0 .positive = _
  simp only [UnpackedFloat.normalize, hgt, UnpackedFloat.round, decreaseExponent,
    Int.toNat_natCast, htarget, hshift]

/-- A whole number of at most 53 bits is a double. -/
theorem isWhole_toFloat {n : ℕ} (hn : 0 < n) (h : n < 2 ^ 53) : IsWhole n.toUInt64.toFloat n := by
  have hlog : n.log2 < 53 := (Nat.log2_lt hn.ne').mpr h
  have hn64 : n.toUInt64.toNat = n := UInt64.toNat_ofNat_of_lt' (h.trans (by decide))
  have heq : n.toUInt64.toFloat = ofDyadic false (.ofNat n) := by
    show Float.ofModel (.pack (UnpackedFloat.ofNat Format.binary64 n.toUInt64.toNat)) = _
    rw [hn64, unpackedOfNat_eq hn (by omega)]
    rfl
  rw [heq]
  exact isWhole_ofNat hn (by omega) (Dvd.dvd.mul_left (Nat.pow_dvd_pow 2 (by omega)) n)

/-- The table of powers of ten is right. -/
theorem powersOfTen_eq : ∀ e : Fin 23,
    Float.exactlyRepresentablePowersOfTen[e.val]? = some (ofDyadic false (.ofNat (10 ^ e.val))) ∧
      2 ^ (10 ^ e.val).log2 ∣ 10 ^ e.val * 2 ^ 52 ∧ (10 ^ e.val).log2 ≤ 1000 := by
  decide +kernel

/-- A power of ten up to the 22nd is a double. -/
theorem isWhole_powerOfTen {e : ℕ} (he : e ≤ 22)
    (hlt : e < Float.exactlyRepresentablePowersOfTen.size) :
    IsWhole Float.exactlyRepresentablePowersOfTen[e] (10 ^ e) := by
  obtain ⟨hget, hdvd, hlog⟩ := powersOfTen_eq ⟨e, by omega⟩
  rw [Array.getElem?_eq_getElem hlt] at hget
  rw [Option.some.inj hget]
  exact isWhole_ofNat (by positivity) hlog hdvd

/-! ### Arithmetic on doubles -/

namespace IsWhole

variable {x y : Float} {m n : ℕ}

theorem mul (hx : IsWhole x m) (hy : IsWhole y n) (hc : d.Canonical) (hpos : 0 < d.mantissa)
    (h : d.Covers (m * n)) : x * y = ofDyadic false d := by
  obtain ⟨a, rfl, ha, halong, havalue⟩ := hx
  obtain ⟨b, rfl, hb, hblong, hbvalue⟩ := hy
  have hapos : 0 < a.mantissa := by omega
  have hbpos : 0 < b.mantissa := by omega
  have hlong : 2 ^ 52 ≤ a.mantissa * b.mantissa :=
    halong.trans (Nat.le_mul_of_pos_right _ hbpos)
  rw [← havalue, ← hbvalue] at h
  show Float.ofModel (.pack (UnpackedFloat.mul Format.binary64 (ofDyadic false a).toModel.unpack
    (ofDyadic false b).toModel.unpack)) = _
  rw [unpack_ofDyadic ha, unpack_ofDyadic hb, signed_of_pos hapos, signed_of_pos hbpos,
    mul_of_covers hapos hbpos hlong hc hpos h]
  rfl

theorem div (hx : IsWhole x m) (hy : IsWhole y n) (hc : d.Canonical) (hpos : 0 < d.mantissa)
    (h : d.Covers (m / n)) : x / y = ofDyadic false d := by
  obtain ⟨a, rfl, ha, halong, havalue⟩ := hx
  obtain ⟨b, rfl, hb, hblong, hbvalue⟩ := hy
  have hapos : 0 < a.mantissa := by omega
  have hbpos : 0 < b.mantissa := by omega
  rw [← havalue, ← hbvalue] at h
  show Float.ofModel (.pack (UnpackedFloat.div Format.binary64 (ofDyadic false a).toModel.unpack
    (ofDyadic false b).toModel.unpack)) = _
  rw [unpack_ofDyadic ha, unpack_ofDyadic hb, signed_of_pos hapos, signed_of_pos hbpos,
    div_of_covers hapos hbpos hc hpos h]
  rfl

end IsWhole

/-! ### Decimals -/

/-- The first digit and the last one bound a decimal between two powers of ten. -/
theorem decimal_bounds {n : ℕ} (hn : 0 < n) (e : ℤ) :
    (10 : ℚ) ^ ((Nat.toDigits 10 n).length - 1 + e) ≤ n * 10 ^ e ∧
      (n : ℚ) * 10 ^ e < 10 ^ ((Nat.toDigits 10 n).length + e) := by
  have hten : (0 : ℚ) < 10 ^ e := zpow_pos (by norm_num) e
  have hlength : 0 < (Nat.toDigits 10 n).length := Nat.length_toDigits_pos
  have hlower : 10 ^ ((Nat.toDigits 10 n).length - 1) ≤ n := by
    by_cases hone : (Nat.toDigits 10 n).length - 1 = 0
    · rw [hone]
      exact hn
    · have hnot := (Nat.length_toDigits_le_iff (n := n) (by norm_num : 1 < 10)
        (Nat.pos_of_ne_zero hone)).not
      omega
  have hupper : n < 10 ^ (Nat.toDigits 10 n).length :=
    (Nat.length_toDigits_le_iff (by norm_num) hlength).mp le_rfl
  constructor
  · rw [zpow_add₀ (by norm_num : (10 : ℚ) ≠ 0)]
    refine mul_le_mul_of_nonneg_right ?_ hten.le
    have hcast : ((Nat.toDigits 10 n).length : ℤ) - 1 = ((Nat.toDigits 10 n).length - 1 : ℕ) := by
      omega
    rw [hcast, zpow_natCast]
    exact_mod_cast hlower
  · rw [zpow_add₀ (by norm_num : (10 : ℚ) ≠ 0), zpow_natCast]
    exact mul_lt_mul_of_pos_right (by exact_mod_cast hupper) hten

/-- Nothing that a double covers lies far outside of the range of doubles. -/
theorem Dyadic.Covers.range {x : ℚ} (h : d.Covers x) (hc : d.Canonical) (hpos : 0 < d.mantissa) :
    10 ^ (-324 : ℤ) < x ∧ x < 10 ^ (309 : ℤ) := by
  constructor
  · have hlow : (2 : ℚ) ≤ d.low := by
      have := (low_bounds d hpos).1
      have hone : (1 : ℚ) ≤ d.mantissa := by exact_mod_cast hpos
      linarith
    have hexp : (2 : ℚ) ^ (-1076 : ℤ) ≤ 2 ^ (d.exponent - 2) := by
      refine zpow_le_zpow_right₀ (by norm_num) ?_
      have : -1074 ≤ d.exponent := hc.least
      omega
    have hpowers : 2 ^ 1075 < 10 ^ 324 := by decide +kernel
    calc (10 : ℚ) ^ (-324 : ℤ) < 2 ^ (-1075 : ℤ) := by
          rw [zpow_neg, zpow_neg, inv_lt_inv₀ (by positivity) (by positivity)]
          exact_mod_cast hpowers
      _ = 2 * 2 ^ (-1076 : ℤ) := zpow_one_add₀ (by norm_num) (-1076)
      _ ≤ d.low * 2 ^ (d.exponent - 2) := by gcongr
      _ ≤ x := h.lower
  · have hhigh : ((4 * d.mantissa + 2 : ℕ) : ℚ) ≤ 2 ^ 55 := by
      have := hc.below
      exact_mod_cast (by omega : 4 * d.mantissa + 2 ≤ 2 ^ 55)
    have hexp : (2 : ℚ) ^ (d.exponent - 2) ≤ 2 ^ (969 : ℤ) := by
      refine zpow_le_zpow_right₀ (by norm_num) ?_
      have := hc.most
      omega
    have hpowers : 2 ^ 1024 < 10 ^ 309 := by decide +kernel
    calc x ≤ (4 * d.mantissa + 2 : ℕ) * 2 ^ (d.exponent - 2) := h.upper
      _ ≤ 2 ^ 55 * 2 ^ (969 : ℤ) := by gcongr
      _ = 2 ^ 1024 := (pow_add 2 55 969).symm
      _ < 10 ^ (309 : ℤ) := by exact_mod_cast hpowers

/-- Without doubles, a decimal is the product or the quotient of two whole numbers. -/
theorem unpackedOfScientific_of_covers {n : ℕ} {e : ℤ} (hn : 0 < n) (hmost : e ≤ 2048)
    (hleast : -(2048 + n.log2 : ℤ) ≤ e) (hc : d.Canonical) (hpos : 0 < d.mantissa)
    (h : d.Covers (n * 10 ^ e)) :
    UnpackedFloat.ofScientific Format.binary64 n e = d.signed false := by
  have hhuge : ¬ e > 2 ^ Format.binary64.exponentBits := by
    show ¬ e > 2 ^ 11
    omega
  have htiny : ¬ e < -((2 ^ Format.binary64.exponentBits : ℤ) + n.log2) := by
    show ¬ e < -(2 ^ 11 + n.log2)
    omega
  unfold UnpackedFloat.ofScientific
  rw [dif_neg hn.ne', if_neg hhuge, if_neg htiny]
  by_cases he : 0 ≤ e
  · rw [if_pos he]
    obtain ⟨k, rfl⟩ := Int.eq_ofNat_of_zero_le he
    have hpower : 0 < 10 ^ k := by positivity
    have hlong : 2 ^ 52 ≤ n <<< 53 * 10 ^ k := by
      rw [Nat.shiftLeft_eq]
      calc 2 ^ 52 ≤ n * 2 ^ 53 := by omega
        _ ≤ n * 2 ^ 53 * 10 ^ k := Nat.le_mul_of_pos_right _ hpower
    have hvalue : ((n <<< 53 : ℕ) * 2 ^ (-53 : ℤ) * ((10 ^ k : ℕ) * 2 ^ (0 : ℤ)) : ℚ) =
        n * 10 ^ (k : ℤ) := by
      rw [Nat.shiftLeft_eq, zpow_neg, zpow_zero, mul_one, zpow_natCast]
      push_cast
      field_simp
    rw [← hvalue] at h
    exact mul_of_covers (by rw [Nat.shiftLeft_eq]; positivity) hpower hlong hc hpos h
  · rw [if_neg he]
    have hneg : ((-e).toNat : ℤ) = -e := Int.toNat_of_nonneg (by omega)
    have hvalue : (n * 2 ^ (0 : ℤ) / ((10 ^ (-e).toNat : ℕ) * 2 ^ (0 : ℤ)) : ℚ) = n * 10 ^ e := by
      rw [zpow_zero, mul_one, mul_one, Nat.cast_pow, Nat.cast_ofNat, ← zpow_natCast, hneg, zpow_neg,
        div_inv_eq_mul]
    rw [← hvalue] at h
    exact div_of_covers hn (by positivity) hc hpos h

theorem ofScientific_mul_of_covers {n e : ℕ} (hn : 0 < n) (he : e ≤ 2048) (hc : d.Canonical)
    (hpos : 0 < d.mantissa) (h : d.Covers (n * 10 ^ e)) :
    Float.ofScientific n false e = ofDyadic false d := by
  unfold Float.ofScientific
  split
  · rename_i hshort
    have hpower := isWhole_powerOfTen hshort.2 (Nat.lt_succ_of_le hshort.2)
    exact (isWhole_toFloat hn hshort.1).mul hpower hc hpos (by push_cast; exact h)
  · rw [← zpow_natCast] at h
    have hunpacked := unpackedOfScientific_of_covers hn (by omega) (by omega) hc hpos h
    exact congrArg (fun u => Float.ofModel (.pack u)) hunpacked

theorem ofScientific_div_of_covers {n e : ℕ} (hn : 0 < n) (he : e ≤ 2048 + n.log2)
    (hc : d.Canonical) (hpos : 0 < d.mantissa) (h : d.Covers (n / 10 ^ e)) :
    Float.ofScientific n true e = ofDyadic false d := by
  unfold Float.ofScientific
  split
  · rename_i hshort
    have hpower := isWhole_powerOfTen hshort.2 (Nat.lt_succ_of_le hshort.2)
    exact (isWhole_toFloat hn hshort.1).div hpower hc hpos (by push_cast; exact h)
  · rw [div_eq_mul_inv, ← zpow_natCast, ← zpow_neg] at h
    have hunpacked := unpackedOfScientific_of_covers hn (by omega) (by omega) hc hpos h
    have hneg : Int.negOfNat e = -(e : ℤ) := Int.negOfNat_eq
    rw [← hneg] at hunpacked
    exact congrArg (fun u => Float.ofModel (.pack u)) hunpacked

/-- **A decimal that a double covers names this double.** -/
theorem nearestFloat_of_covers {n : ℕ} {e : ℤ} (hn : 0 < n) (hc : d.Canonical)
    (hpos : 0 < d.mantissa) (h : d.Covers (n * 10 ^ e)) :
    nearestFloat n e = ofDyadic false d := by
  have hten : (1 : ℚ) < 10 := by norm_num
  have hhuge : hugePlaces = 400 := rfl
  have hlength : 0 < (Nat.toDigits 10 n).length := Nat.length_toDigits_pos
  obtain ⟨hfirst, hlast⟩ := decimal_bounds hn e
  obtain ⟨hsmall, hlarge⟩ := h.range hc hpos
  have hmost := (zpow_lt_zpow_iff_right₀ hten).mp (hfirst.trans_lt hlarge)
  have hleast := (zpow_lt_zpow_iff_right₀ hten).mp (hsmall.trans hlast)
  unfold nearestFloat
  rw [if_neg hn.ne', if_neg (by omega), if_neg (by omega)]
  split
  · rename_i he
    obtain ⟨k, rfl⟩ := Int.eq_ofNat_of_zero_le he
    rw [zpow_natCast] at h
    exact ofScientific_mul_of_covers hn (by omega) hc hpos h
  · rename_i he
    obtain ⟨k, hk⟩ := Int.eq_ofNat_of_zero_le (by omega : 0 ≤ -e)
    obtain rfl : e = -(k : ℤ) := by omega
    rw [zpow_neg, zpow_natCast, ← div_eq_mul_inv] at h
    rw [neg_neg]
    refine ofScientific_div_of_covers hn ?_ hc hpos h
    -- A number has at most as many decimal digits as binary ones.
    have hdigits : (Nat.toDigits 10 n).length ≤ n.log2 + 1 := by
      rw [Nat.length_toDigits_le_iff (by norm_num) (by omega)]
      calc n < 2 ^ (n.log2 + 1) := Nat.lt_log2_self
        _ ≤ 10 ^ (n.log2 + 1) := Nat.pow_le_pow_left (by norm_num) _
    show k ≤ 2048 + n.log2
    omega

end RobotControl.Decimal
