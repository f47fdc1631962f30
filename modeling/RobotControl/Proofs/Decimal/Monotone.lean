import RobotControl.Proofs.Decimal.Nearest

/-!
Rounding keeps the order.

A number that is not above a double is not rounded to anything above it, because the double is a
whole multiple of the spacing at the number. Nothing here looks at where rounding breaks ties.

* `Represents.roundedMantissa_le`, `Represents.le_roundedMantissa`: the rounded mantissa passes no
  whole number.
* `Dyadic.Reduced`: a canonical double, but for the size of its exponent.
* `round_positive`: a number is rounded to a reduced double, which is above no canonical double that
  the number is not above.
-/

namespace RobotControl.Decimal

open Float.Model
open Float.Model.UnpackedFloat

/-! ### Whole numbers and the rounded mantissa -/

section Mantissa

variable {em : ExtendedMantissa} {y : ℚ} {n : ℕ}

/-- The rounded mantissa is the mantissa or the next one, and the mantissa itself if the number is
whole. -/
theorem Represents.roundedMantissa_cases (h : Represents em y) :
    (em.roundedMantissa = em.mantissa) ∨
      (em.roundedMantissa = em.mantissa + 1 ∧ (em.mantissa : ℚ) < y) := by
  obtain ⟨m, r, s⟩ := em
  cases r <;> cases s <;> simp only [Represents] at h
  · exact .inl rfl
  · exact .inl rfl
  · show m + m % 2 = m ∨ m + m % 2 = m + 1 ∧ (m : ℚ) < y
    rcases Nat.mod_two_eq_zero_or_one m with hm | hm
    · exact .inl (by omega)
    · exact .inr ⟨by omega, by linarith⟩
  · exact .inr ⟨rfl, by linarith [h.1]⟩

theorem Represents.roundedMantissa_le (h : Represents em y) (hn : y ≤ n) :
    em.roundedMantissa ≤ n := by
  have hm := h.bounds.1
  rcases h.roundedMantissa_cases with heq | ⟨heq, hlt⟩
  · rw [heq]
    exact_mod_cast hm.trans hn
  · rw [heq]
    exact_mod_cast hlt.trans_le hn

theorem Represents.le_roundedMantissa (h : Represents em y) (hn : n ≤ y) :
    n ≤ em.roundedMantissa := by
  have hle : n ≤ em.mantissa := le_of_cast_lt_add_one (hn.trans_lt h.bounds.2)
  rcases h.roundedMantissa_cases with heq | ⟨heq, -⟩ <;> omega

end Mantissa

/-! ### Reduced doubles -/

namespace Dyadic

/-- The mantissa has no bit to spare, unless the exponent is the least. The exponent may be too
large for a double. -/
structure Reduced (d : Dyadic) : Prop where
  below : d.mantissa < 2 ^ 53
  normal : 2 ^ 52 ≤ d.mantissa ∨ d.exponent = leastExponent
  least : leastExponent ≤ d.exponent

variable {d r : Dyadic}

theorem Canonical.reduced (h : d.Canonical) : d.Reduced :=
  ⟨h.below, h.normal, h.least⟩

theorem Reduced.canonical (h : d.Reduced) (most : d.exponent ≤ 971) : d.Canonical :=
  ⟨h.below, h.normal, h.least, most⟩

theorem value_nonneg (d : Dyadic) : 0 ≤ d.value :=
  mul_nonneg (Nat.cast_nonneg _) (two_zpow_pos _).le

theorem value_pos (h : 0 < d.mantissa) : 0 < d.value :=
  mul_pos (Nat.cast_pos.mpr h) (two_zpow_pos _)

/-- A double lies below the power of two that is one bit longer than its mantissa. -/
theorem Reduced.value_lt (h : d.Reduced) : d.value < 2 ^ (53 + d.exponent) := by
  have hm : (d.mantissa : ℚ) < 2 ^ 53 := by exact_mod_cast h.below
  rw [zpow_add₀ two_ne_zero]
  exact mul_lt_mul_of_pos_right hm (two_zpow_pos _)

theorem two_zpow_le_value (h : 2 ^ 52 ≤ d.mantissa) : 2 ^ (52 + d.exponent) ≤ d.value := by
  have hm : (2 ^ 52 : ℚ) ≤ d.mantissa := by exact_mod_cast h
  rw [zpow_add₀ two_ne_zero]
  exact mul_le_mul_of_nonneg_right hm (two_zpow_pos _).le

/-- A double with the larger exponent is the larger one. -/
theorem Reduced.value_lt_value (hd : d.Reduced) (hr : r.Reduced) (h : d.exponent < r.exponent) :
    d.value < r.value := by
  have hleast := hd.least
  have hlong : 2 ^ 52 ≤ r.mantissa := hr.normal.resolve_right (by omega)
  calc d.value < 2 ^ (53 + d.exponent) := hd.value_lt
    _ ≤ 2 ^ (52 + r.exponent) := zpow_le_zpow_right₀ (by norm_num) (by omega)
    _ ≤ r.value := two_zpow_le_value hlong

/-- A reduced double that is not above a canonical one is canonical. -/
theorem Reduced.canonical_of_le (hr : r.Reduced) (hd : d.Canonical) (h : r.value ≤ d.value) :
    r.Canonical := by
  refine hr.canonical ?_
  by_contra hmost
  have hlarger := hd.reduced.value_lt_value hr (lt_of_le_of_lt hd.most (not_le.mp hmost))
  exact absurd h hlarger.not_ge

/-- The exponent to which a number is cut off is not above that of a larger double. -/
theorem Canonical.targetExponent_le {m : ℕ} {e : ℤ} (hd : d.Canonical) (hm : 0 < m)
    (h : m * 2 ^ e ≤ d.value) :
    Format.binary64.targetExponent (totalExponent m e) ≤ d.exponent := by
  have hp := Dyadic.two_zpow_pos e
  have hleast : -1074 ≤ d.exponent := hd.least
  have hbelow : (2 : ℚ) ^ (totalExponent m e - 1) ≤ m * 2 ^ e := by
    refine two_zpow_totalExponent_le hm.ne' ?_
    rw [mul_div_cancel_right₀ _ hp.ne']
  have hlt := hbelow.trans_lt (h.trans_lt hd.reduced.value_lt)
  rw [zpow_lt_zpow_iff_right₀ (by norm_num : (1 : ℚ) < 2)] at hlt
  rw [targetExponent_binary64]
  omega

/-- A double in units of a power of two that is not above its own. -/
theorem value_div_two_zpow {t : ℤ} (h : t ≤ d.exponent) :
    d.value / 2 ^ t = (d.mantissa * 2 ^ (d.exponent - t).toNat : ℕ) := by
  have hexp : ((d.exponent - t).toNat : ℤ) = d.exponent - t := Int.toNat_of_nonneg (by omega)
  rw [value, mul_div_assoc, ← zpow_sub₀ two_ne_zero, ← hexp, zpow_natCast]
  push_cast
  rfl

end Dyadic

/-! ### Rounding -/

/-- What is left of rounding is a mantissa and an exponent, or zero. -/
theorem roundWithAccuracy_eq_signed {m n k : ℕ} {e e₁ e₂ : ℤ} {accuracy : Accuracy}
    {em : ExtendedMantissa}
    (hcut : shiftToTargetExponent Format.binary64 m e accuracy = (em, e₁))
    (hround : em.roundedMantissa = n)
    (hagain : shiftToTargetExponent Format.binary64 n e₁ .exact = (⟨k, false, false⟩, e₂)) :
    roundWithAccuracy Format.binary64 .positive m e accuracy =
      (⟨k, e₂⟩ : Dyadic).signed false := by
  by_cases hk : 0 < k
  · rw [signed_of_pos (d := ⟨k, e₂⟩) hk]
    exact Dyadic.roundWithAccuracy_eq hk hcut hround hagain
  · unfold roundWithAccuracy Dyadic.signed
    rw [hcut]
    dsimp only
    rw [hround, hagain, dif_pos (Nat.eq_zero_of_not_pos hk), dif_neg hk]
    rfl

/-- After the first cut the mantissa has at most 53 bits, and all of them unless the exponent is the
least. -/
theorem firstCut {m : ℕ} {e : ℤ} (hm : 0 < m)
    (he : e ≤ Format.binary64.targetExponent (totalExponent m e)) :
    ∃ em t, shiftToTargetExponent Format.binary64 m e .exact = (em, t) ∧
      t = Format.binary64.targetExponent (totalExponent m e) ∧
      Represents em (m * 2 ^ e / 2 ^ t) ∧ leastExponent ≤ t ∧ em.roundedMantissa ≤ 2 ^ 53 ∧
      (2 ^ 52 ≤ em.roundedMantissa ∨ t = leastExponent) := by
  have hp := Dyadic.two_zpow_pos e
  have hone : (1 : ℚ) ≤ 2 := by norm_num
  have hquot : (m * 2 ^ e / 2 ^ e : ℚ) = m := mul_div_cancel_right₀ _ hp.ne'
  have hleast : leastExponent = -1074 := rfl
  have htarget := Dyadic.targetExponent_binary64 (totalExponent m e)
  obtain ⟨hrep, hexp⟩ := Dyadic.represents_shiftToExponent
    (show Represents (.ofMantissaAndAccuracy m .exact) (m * 2 ^ e / 2 ^ e) from hquot) he
  have habove : (m * 2 ^ e : ℚ) < 2 ^ totalExponent m e :=
    Dyadic.lt_two_zpow_totalExponent (by rw [hquot]; exact lt_add_one _)
  have hbelow : (2 : ℚ) ^ (totalExponent m e - 1) ≤ m * 2 ^ e :=
    Dyadic.two_zpow_totalExponent_le hm.ne' hquot.ge
  unfold shiftToTargetExponent
  generalize Format.binary64.targetExponent (totalExponent m e) = t at *
  have ht := Dyadic.two_zpow_pos t
  refine ⟨_, t, Prod.ext rfl hexp, rfl, hrep, by omega, ?_, ?_⟩
  · refine hrep.roundedMantissa_le ?_
    rw [div_le_iff₀ ht]
    calc (m * 2 ^ e : ℚ) ≤ 2 ^ totalExponent m e := habove.le
      _ ≤ 2 ^ (53 + t) := zpow_le_zpow_right₀ hone (by omega)
      _ = (2 ^ 53 : ℕ) * 2 ^ t := by
          rw [zpow_add₀ two_ne_zero]
          norm_cast
  · rcases eq_or_ne t leastExponent with hmin | hmin
    · exact .inr hmin
    · refine .inl (hrep.le_roundedMantissa ?_)
      rw [le_div_iff₀ ht]
      calc ((2 ^ 52 : ℕ) * 2 ^ t : ℚ) = 2 ^ (52 + t) := by
            rw [zpow_add₀ two_ne_zero]
            norm_cast
        _ ≤ 2 ^ (totalExponent m e - 1) := zpow_le_zpow_right₀ hone (by omega)
        _ ≤ m * 2 ^ e := hbelow

/-- The second cut only moves a bit that rounding has added into the exponent. -/
theorem secondCut {n : ℕ} {t : ℤ} (hn : n ≤ 2 ^ 53) (hlong : 2 ^ 52 ≤ n ∨ t = leastExponent)
    (ht : leastExponent ≤ t) :
    ∃ r : Dyadic, shiftToTargetExponent Format.binary64 n t .exact =
        (⟨r.mantissa, false, false⟩, r.exponent) ∧ r.Reduced ∧ r.value = n * 2 ^ t := by
  have hleast : leastExponent = -1074 := rfl
  rcases hn.lt_or_eq with hlt | rfl
  · refine ⟨⟨n, t⟩, Dyadic.shiftToTargetExponent_of_le ?_, ⟨hlt, hlong, ht⟩, rfl⟩
    have hlog : n.log2 < 53 := by
      rcases Nat.eq_zero_or_pos n with rfl | hpos
      · decide
      · exact (Nat.log2_lt hpos.ne').mpr hlt
    rw [Dyadic.targetExponent_binary64, totalExponent]
    omega
  · have hcut := Dyadic.shiftToTargetExponent_two_pow (e := t + 1) (by omega)
    rw [add_sub_cancel_right] at hcut
    refine ⟨⟨2 ^ 52, t + 1⟩, hcut, ⟨by norm_num, .inl le_rfl, by dsimp only; omega⟩, ?_⟩
    rw [Dyadic.value, zpow_add₀ two_ne_zero]
    push_cast
    ring

theorem log2_mul_two_pow {m : ℕ} (hm : 0 < m) (k : ℕ) : (m * 2 ^ k).log2 = m.log2 + k := by
  have hbelow := Nat.mul_le_mul_right (2 ^ k) (Nat.log2_self_le hm.ne')
  have habove := Nat.mul_lt_mul_of_pos_right (Nat.lt_log2_self (n := m)) (Nat.two_pow_pos k)
  rw [← pow_add] at hbelow habove
  rw [Nat.log2_eq_iff (by positivity)]
  exact ⟨hbelow, by rwa [Nat.add_right_comm]⟩

/-- Lowering the exponent to where a number is cut off does not change the number. -/
theorem decreaseExponent_spec {m : ℕ} {e : ℤ} (hm : 0 < m) (t : ℤ) :
    ∃ k f, decreaseExponent m e t = (k, f) ∧ 0 < k ∧ f = min e t ∧
      (k * 2 ^ f : ℚ) = m * 2 ^ e ∧ totalExponent k f = totalExponent m e := by
  have hshift : ((e - t).toNat : ℤ) = e - min e t := by omega
  refine ⟨m <<< (e - t).toNat, e - (e - t).toNat, rfl, ?_, by omega, ?_, ?_⟩
  · rw [Nat.shiftLeft_eq]
    positivity
  · rw [hshift, sub_sub_cancel, Nat.shiftLeft_eq]
    push_cast
    rw [mul_assoc, ← zpow_natCast, ← zpow_add₀ two_ne_zero, hshift, sub_add_cancel]
  · rw [totalExponent, totalExponent, Nat.shiftLeft_eq, log2_mul_two_pow hm]
    push_cast
    ring

/-- **Rounding passes no double.** -/
theorem round_positive {m : ℕ} {e : ℤ} (hm : 0 < m) :
    ∃ r : Dyadic, UnpackedFloat.round Format.binary64 .positive m e = r.signed false ∧ r.Reduced ∧
      ∀ d : Dyadic, d.Canonical → m * 2 ^ e ≤ d.value → r.value ≤ d.value := by
  obtain ⟨k, f, hlow, hk, hf, hvalue, htotal⟩ :=
    decreaseExponent_spec (e := e) hm (Format.binary64.targetExponent (totalExponent m e))
  obtain ⟨em, t, hcut, ht, hrep, hleast, hmost, hlong⟩ :=
    firstCut (e := f) hk (by rw [htotal, hf]; exact min_le_right _ _)
  obtain ⟨r, hagain, hr, hrvalue⟩ := secondCut hmost hlong hleast
  refine ⟨r, ?_, hr, ?_⟩
  · rw [UnpackedFloat.round, hlow]
    exact roundWithAccuracy_eq_signed hcut rfl hagain
  · intro d hd hle
    have htd : t ≤ d.exponent := by
      rw [ht]
      exact hd.targetExponent_le hk (by rwa [hvalue])
    have hp := Dyadic.two_zpow_pos t
    have hunits := hrep.roundedMantissa_le
      (n := d.mantissa * 2 ^ (d.exponent - t).toNat) (by
        rw [← Dyadic.value_div_two_zpow htd, hvalue]
        exact div_le_div_of_nonneg_right hle hp.le)
    calc r.value = em.roundedMantissa * 2 ^ t := hrvalue
      _ ≤ (d.mantissa * 2 ^ (d.exponent - t).toNat : ℕ) * 2 ^ t :=
          mul_le_mul_of_nonneg_right (by exact_mod_cast hunits) hp.le
      _ = d.value := by
          rw [← Dyadic.value_div_two_zpow htd, div_mul_cancel₀ _ hp.ne']

end RobotControl.Decimal
