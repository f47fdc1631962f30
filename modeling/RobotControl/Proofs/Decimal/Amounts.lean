import Mathlib.Order.Compare
import RobotControl.Proofs.Decimal.Monotone

/-!
Doubles that are not below zero.

* `not_lt_of_le`: a double that is at most another one is not above it.
* `IsAmount`: the double is a number that is not below zero.
* `IsAmount.le_iff`, `IsAmount.lt_iff`: such doubles are compared like their numbers.
* `zero_le_iff`: a double that is not below zero is an amount, unless it is infinite.
* `IsAmount.sub`: what is left of an amount is an amount that is not larger.
* `IsAmount.add`: a sum of amounts is an amount, unless it is infinite.
-/

namespace RobotControl.Decimal

open Float.Model
open Float.Model.UnpackedFloat

/-- The double is the number `v`, which is not below zero. Both zeros are the number zero. -/
inductive IsAmount : Float → ℚ → Prop where
  | zero (negative : Bool) : IsAmount (ofDyadic negative ⟨0, leastExponent⟩) 0
  | positive {d : Dyadic} : d.Canonical → 0 < d.mantissa → IsAmount (ofDyadic false d) d.value

/-- The double is infinite and above zero. -/
def Unbounded (x : Float) : Prop :=
  x.toModel.unpack = .infinity .positive

section Unpacking

theorem unpack_zero (negative : Bool) : (ofDyadic negative ⟨0, leastExponent⟩).toModel.unpack =
    .zero (if negative then .negative else .positive) :=
  unpack_ofDyadic (Dyadic.canonical_subnormal (by norm_num)) negative

theorem unpack_positive {d : Dyadic} (hd : d.Canonical) (hpos : 0 < d.mantissa) :
    (ofDyadic false d).toModel.unpack = .finite .positive d.mantissa d.exponent hpos :=
  (unpack_ofDyadic hd false).trans (signed_of_pos hpos)

theorem isAmount_zero : IsAmount 0.0 0 :=
  .zero false

theorem isAmount_ofDyadic {d : Dyadic} (hd : d.Canonical) : IsAmount (ofDyadic false d) d.value := by
  rcases Nat.eq_zero_or_pos d.mantissa with hzero | hpos
  · rw [hd.eq_zero hzero]
    have hvalue : (⟨0, leastExponent⟩ : Dyadic).value = 0 := by
      rw [Dyadic.value, Nat.cast_zero, zero_mul]
    rw [hvalue]
    exact .zero false
  · exact .positive hd hpos

end Unpacking

/-! ### Comparing -/

section Comparing

variable {x y : Float} {v w : ℚ}

theorem le_iff_compare :
    x ≤ y ↔ (x.toModel.unpack.compare y.toModel.unpack).any (·.isLE) = true := by
  show decide ((x.toModel.unpack.compare y.toModel.unpack).any (·.isLE) = true) = true ↔ _
  exact decide_eq_true_iff

theorem lt_iff_compare : x < y ↔ (x.toModel.unpack.compare y.toModel.unpack == some .lt) = true := by
  show decide ((x.toModel.unpack.compare y.toModel.unpack == some .lt) = true) = true ↔ _
  exact decide_eq_true_iff

theorem le_of_lt {x y : Float} (h : x < y) : x ≤ y := by
  rw [lt_iff_compare, beq_iff_eq] at h
  rw [le_iff_compare, h]
  rfl

/-- Comparing the other way round gives the opposite answer. -/
theorem compare_swap (x y : UnpackedFloat) :
    y.compare x = (x.compare y).map Ordering.swap := by
  have size (e f : Int) (m n : Nat) : (Ord.compare f e).then (Ord.compare n m) =
      ((Ord.compare e f).then (Ord.compare m n)).swap := by
    rw [Ordering.swap_then, ← Std.OrientedCmp.eq_swap, ← Std.OrientedCmp.eq_swap]
  rcases x with (_ | _) | _ | (_ | _) | ⟨_ | _, m, e, _⟩ <;>
    rcases y with (_ | _) | _ | (_ | _) | ⟨_ | _, n, f, _⟩ <;> try rfl
  · exact congrArg (fun order => some order.swap) (size e f m n)
  · exact congrArg some (size e f m n)

/-- This holds of all doubles. The converse does not, because what is not a number is not
compared. -/
theorem not_lt_of_le {x y : Float} (h : x ≤ y) : ¬ y < x := by
  rw [le_iff_compare] at h
  rw [lt_iff_compare, compare_swap]
  rcases hc : x.toModel.unpack.compare y.toModel.unpack with _ | order
  · decide
  · rw [hc] at h
    cases order with
    | lt => decide
    | eq => decide
    | gt => cases h

theorem IsAmount.nonneg (hx : IsAmount x v) : 0 ≤ v := by
  cases hx with
  | zero => exact le_rfl
  | positive _ hpos => exact (Dyadic.value_pos hpos).le

/-- Doubles without bits to spare are compared by their exponents first. -/
theorem Dyadic.Reduced.compare {c d : Dyadic} (hc : c.Reduced) (hd : d.Reduced) :
    (compare c.exponent d.exponent).then (compare c.mantissa d.mantissa) =
      compare c.value d.value := by
  rcases lt_trichotomy c.exponent d.exponent with hlt | heq | hgt
  · rw [Int.compare_eq_lt.mpr hlt, compare_lt_iff_lt.mpr (hc.value_lt_value hd hlt)]
    rfl
  · have hp := two_zpow_pos d.exponent
    rw [Int.compare_eq_eq.mpr heq, value, value, heq]
    show Ord.compare c.mantissa d.mantissa = _
    rcases lt_trichotomy c.mantissa d.mantissa with hm | hm | hm
    · have hv : (c.mantissa * 2 ^ d.exponent : ℚ) < d.mantissa * 2 ^ d.exponent :=
        mul_lt_mul_of_pos_right (by exact_mod_cast hm) hp
      rw [Nat.compare_eq_lt.mpr hm, compare_lt_iff_lt.mpr hv]
    · rw [hm, Nat.compare_eq_eq.mpr rfl, compare_eq_iff_eq.mpr rfl]
    · have hv : (d.mantissa * 2 ^ d.exponent : ℚ) < c.mantissa * 2 ^ d.exponent :=
        mul_lt_mul_of_pos_right (by exact_mod_cast hm) hp
      rw [Nat.compare_eq_gt.mpr hm, compare_gt_iff_gt.mpr hv]
  · rw [Int.compare_eq_gt.mpr hgt, compare_gt_iff_gt.mpr (hd.value_lt_value hc hgt)]
    rfl

/-- **Amounts are compared like their numbers.** -/
theorem IsAmount.compare (hx : IsAmount x v) (hy : IsAmount y w) :
    x.toModel.unpack.compare y.toModel.unpack = some (compare v w) := by
  cases hx with
  | zero =>
      cases hy with
      | zero =>
          rw [unpack_zero, unpack_zero, compare_eq_iff_eq.mpr rfl]
          rfl
      | positive hd hpos =>
          rw [unpack_zero, unpack_positive hd hpos, compare_lt_iff_lt.mpr (Dyadic.value_pos hpos)]
          rfl
  | positive hc cpos =>
      cases hy with
      | zero =>
          rw [unpack_zero, unpack_positive hc cpos, compare_gt_iff_gt.mpr (Dyadic.value_pos cpos)]
          rfl
      | positive hd hpos =>
          rw [unpack_positive hc cpos, unpack_positive hd hpos,
            ← hc.reduced.compare hd.reduced]
          rfl

theorem IsAmount.le_iff (hx : IsAmount x v) (hy : IsAmount y w) : x ≤ y ↔ v ≤ w := by
  rw [le_iff_compare, hx.compare hy, ← compare_le_iff_le]
  cases Ord.compare v w <;> decide

theorem IsAmount.lt_iff (hx : IsAmount x v) (hy : IsAmount y w) : x < y ↔ v < w := by
  rw [lt_iff_compare, hx.compare hy, ← compare_lt_iff_lt]
  cases Ord.compare v w <;> decide

theorem IsAmount.zero_le (hx : IsAmount x v) : 0.0 ≤ x :=
  (isAmount_zero.le_iff hx).mpr hx.nonneg

theorem IsAmount.isNaN (hx : IsAmount x v) : x.isNaN = false := by
  show x.toModel.unpack.isNaN = false
  cases hx with
  | zero => rw [unpack_zero]; rfl
  | positive hd hpos => rw [unpack_positive hd hpos]; rfl

theorem Unbounded.isNaN (hx : Unbounded x) : x.isNaN = false := by
  show x.toModel.unpack.isNaN = false
  rw [hx]
  rfl

theorem IsAmount.lt_unbounded (hx : IsAmount x v) (hy : Unbounded y) : x < y := by
  rw [lt_iff_compare, hy]
  cases hx with
  | zero => rw [unpack_zero]; rfl
  | positive hd hpos => rw [unpack_positive hd hpos]; rfl

theorem Unbounded.not_le (hx : Unbounded x) (hy : IsAmount y w) : ¬ x ≤ y := by
  rw [le_iff_compare, hx]
  cases hy with
  | zero => rw [unpack_zero]; exact Bool.false_ne_true
  | positive hd hpos => rw [unpack_positive hd hpos]; exact Bool.false_ne_true

/-- A finite double is an amount, or it is below zero. -/
theorem exists_isAmount_or_lt (h : x.isFinite) :
    (∃ v, IsAmount x v) ∨ (x < 0.0 ∧ ¬ 0.0 ≤ x) := by
  obtain ⟨d, hmagnitude⟩ := exists_magnitude_of_isFinite h
  have hd := (Dyadic.toBits_of_magnitude hmagnitude).2
  rw [eq_ofDyadic hmagnitude]
  cases isNegative x with
  | false => exact .inl ⟨d.value, isAmount_ofDyadic hd⟩
  | true =>
      rcases Nat.eq_zero_or_pos d.mantissa with hzero | hpos
      · rw [hd.eq_zero hzero]
        exact .inl ⟨0, .zero true⟩
      · have hunpack : (ofDyadic true d).toModel.unpack =
            .finite .negative d.mantissa d.exponent hpos :=
          (unpack_ofDyadic hd true).trans (dif_pos hpos)
        have hz : (0.0 : Float).toModel.unpack = .zero .positive := unpack_zero false
        rw [lt_iff_compare, le_iff_compare, hunpack, hz]
        exact .inr ⟨rfl, Bool.false_ne_true⟩

/-- **What is not below zero is an amount, or it is infinite.** -/
theorem zero_le_iff : 0.0 ≤ x ↔ (∃ v, IsAmount x v) ∨ Unbounded x := by
  have hz : (0.0 : Float).toModel.unpack = .zero .positive := unpack_zero false
  constructor
  · intro h
    by_cases hfinite : x.isFinite
    · exact .inl ((exists_isAmount_or_lt hfinite).resolve_right fun hlt => hlt.2 h)
    · rw [le_iff_compare, hz] at h
      have hfinite : x.toModel.unpack.isFinite ≠ true := hfinite
      right
      show x.toModel.unpack = _
      cases hx : x.toModel.unpack with
      | notANumber => rw [hx] at h; cases h
      | infinity sign =>
          rw [hx] at h
          cases sign with
          | negative => cases h
          | positive => rfl
      | zero => rw [hx] at hfinite; exact absurd rfl hfinite
      | finite => rw [hx] at hfinite; exact absurd rfl hfinite
  · rintro (⟨v, hx⟩ | hx)
    · exact hx.zero_le
    · rw [le_iff_compare, hz, hx]
      rfl

/-- What is not below zero and not above an amount is an amount. -/
theorem IsAmount.exists_of_le (hy : IsAmount y w) (nonneg : 0.0 ≤ x) (h : x ≤ y) :
    ∃ v, v ≤ w ∧ IsAmount x v := by
  rcases zero_le_iff.mp nonneg with ⟨v, hx⟩ | infinite
  · exact ⟨v, (hx.le_iff hy).mp h, hx⟩
  · exact absurd h (infinite.not_le hy)

end Comparing

/-! ### Adding and taking away -/

section Arithmetic

variable {x y : Float} {v w : ℚ}

theorem sub_eq : x - y =
    .ofModel (.pack (UnpackedFloat.sub Format.binary64 x.toModel.unpack y.toModel.unpack)) := rfl

theorem add_eq : x + y =
    .ofModel (.pack (UnpackedFloat.add Format.binary64 x.toModel.unpack y.toModel.unpack)) := rfl

/-- Packing a zero of either sign. -/
theorem isAmount_pack_zero (sign : Sign) : IsAmount (.ofModel (.pack (.zero sign))) 0 := by
  cases sign with
  | negative => exact .zero true
  | positive => exact .zero false

/-- Packing a canonical double above zero. -/
theorem isAmount_pack_finite {d : Dyadic} (hd : d.Canonical) (hpos : 0 < d.mantissa) :
    IsAmount (.ofModel (.pack (.finite .positive d.mantissa d.exponent hpos))) d.value := by
  rw [← signed_of_pos hpos]
  exact .positive hd hpos

/-- A reduced double is an amount, or its exponent is too large. -/
theorem isAmount_or_unbounded {d : Dyadic} (hd : d.Reduced) :
    IsAmount (ofDyadic false d) d.value ∨ Unbounded (ofDyadic false d) := by
  rcases le_or_gt d.exponent 971 with hmost | hmost
  · exact .inl (isAmount_ofDyadic (hd.canonical hmost))
  · have hleast : leastExponent = -1074 := rfl
    have hpos : 0 < d.mantissa := by
      have := hd.normal.resolve_right (by omega)
      omega
    have hbias : (Format.binary64.exponentBias : ℤ) = 1023 := rfl
    have hpack : UnpackedFloat.pack Format.binary64 (d.signed false) =
        UnpackedFloat.packedInfinity Format.binary64 .positive := by
      rw [signed_of_pos hpos]
      unfold UnpackedFloat.pack
      refine if_pos ?_
      show 2 ^ 11 ≤ (d.exponent + Format.binary64.exponentBias + 52).toNat + 1
      omega
    right
    show UnpackedFloat.unpack Format.binary64
      (UnpackedFloat.pack Format.binary64 (d.signed false)) = _
    rw [hpack]
    rfl

/-- An exact result that is not below zero is rounded past no double. -/
theorem normalize_spec {m : ℤ} (hm : 0 ≤ m) (e : ℤ) :
    ∃ r : Dyadic, UnpackedFloat.normalize Format.binary64 m e .positive = r.signed false ∧
      r.Reduced ∧ ∀ d : Dyadic, d.Canonical → m * 2 ^ e ≤ d.value → r.value ≤ d.value := by
  rcases hm.eq_or_lt with rfl | hpos
  · refine ⟨⟨0, leastExponent⟩, rfl, ⟨by norm_num, .inr rfl, le_rfl⟩, ?_⟩
    intro d _ _
    rw [Dyadic.value, Nat.cast_zero, zero_mul]
    exact d.value_nonneg
  · obtain ⟨k, rfl⟩ := Int.eq_ofNat_of_zero_le hm
    have hgt : compare (k : ℤ) 0 = .gt := Int.compare_eq_gt.mpr hpos
    simp only [UnpackedFloat.normalize, hgt, Int.toNat_natCast, Int.cast_natCast]
    exact round_positive (by omega)

/-- The mantissas of two doubles with one exponent in common. -/
theorem common_exponent {c d : Dyadic} (hc : 0 < c.mantissa) (hd : 0 < d.mantissa) :
    ∃ m n, (decreaseExponent c.mantissa c.exponent (min c.exponent d.exponent)).1 = m ∧
      (decreaseExponent d.mantissa d.exponent (min c.exponent d.exponent)).1 = n ∧
      (m * 2 ^ min c.exponent d.exponent : ℚ) = c.value ∧
      (n * 2 ^ min c.exponent d.exponent : ℚ) = d.value := by
  obtain ⟨m, e, hm, -, he, hmvalue, -⟩ :=
    decreaseExponent_spec (e := c.exponent) hc (min c.exponent d.exponent)
  obtain ⟨n, f, hn, -, hf, hnvalue, -⟩ :=
    decreaseExponent_spec (e := d.exponent) hd (min c.exponent d.exponent)
  have he' : e = min c.exponent d.exponent := by omega
  have hf' : f = min c.exponent d.exponent := by omega
  rw [he'] at hmvalue
  rw [hf'] at hnvalue
  exact ⟨m, n, by rw [hm], by rw [hn], hmvalue, hnvalue⟩

section Exact

variable {c d : Dyadic} (hc : 0 < c.mantissa) (hd : 0 < d.mantissa)

/-- The exact difference of two doubles above zero, then rounded. -/
theorem sub_finite : UnpackedFloat.sub Format.binary64 (.finite .positive c.mantissa c.exponent hc)
      (.finite .positive d.mantissa d.exponent hd) =
    UnpackedFloat.normalize Format.binary64
      ((decreaseExponent c.mantissa c.exponent (min c.exponent d.exponent)).1 -
        (decreaseExponent d.mantissa d.exponent (min c.exponent d.exponent)).1)
      (min c.exponent d.exponent) .positive :=
  rfl

/-- The exact sum of two doubles above zero, then rounded. -/
theorem add_finite : UnpackedFloat.add Format.binary64 (.finite .positive c.mantissa c.exponent hc)
      (.finite .positive d.mantissa d.exponent hd) =
    UnpackedFloat.normalize Format.binary64
      ((decreaseExponent c.mantissa c.exponent (min c.exponent d.exponent)).1 +
        (decreaseExponent d.mantissa d.exponent (min c.exponent d.exponent)).1)
      (min c.exponent d.exponent) .positive :=
  rfl

end Exact

/-- **What is left of an amount is an amount that is not larger.** -/
theorem IsAmount.sub (hx : IsAmount x v) (hy : IsAmount y w) (h : w ≤ v) :
    ∃ u, u ≤ v ∧ IsAmount (x - y) u := by
  rw [sub_eq]
  cases hx with
  | zero negative =>
      cases hy with
      | zero negative' =>
          rw [unpack_zero, unpack_zero]
          refine ⟨0, le_rfl, ?_⟩
          cases negative <;> cases negative' <;> exact isAmount_pack_zero _
      | positive _ hpos => exact absurd h (Dyadic.value_pos hpos).not_ge
  | @positive c hc cpos =>
      cases hy with
      | zero =>
          rw [unpack_positive hc cpos, unpack_zero]
          exact ⟨c.value, le_rfl, isAmount_pack_finite hc cpos⟩
      | @positive d hd dpos =>
          obtain ⟨m, n, hm, hn, hmvalue, hnvalue⟩ := common_exponent cpos dpos
          have hp := Dyadic.two_zpow_pos (min c.exponent d.exponent)
          have hle : n ≤ m := by
            rw [← hmvalue, ← hnvalue] at h
            exact_mod_cast le_of_mul_le_mul_right h hp
          obtain ⟨r, hround, hr, hbound⟩ :=
            normalize_spec (m := (m : ℤ) - n) (by omega) (min c.exponent d.exponent)
          have hsmall : r.value ≤ c.value := by
            refine hbound c hc ?_
            push_cast
            rw [sub_mul, hmvalue, hnvalue]
            linarith [d.value_nonneg]
          refine ⟨r.value, hsmall, ?_⟩
          rw [unpack_positive hc cpos, unpack_positive hd dpos, sub_finite, hm, hn, hround]
          exact isAmount_ofDyadic (hr.canonical_of_le hc hsmall)

/-- **A sum of amounts is an amount, unless it is infinite.** -/
theorem IsAmount.add (hx : IsAmount x v) (hy : IsAmount y w) :
    (∃ u, IsAmount (x + y) u) ∨ Unbounded (x + y) := by
  rw [add_eq]
  cases hx with
  | zero negative =>
      cases hy with
      | zero negative' =>
          rw [unpack_zero, unpack_zero]
          refine .inl ⟨0, ?_⟩
          cases negative <;> cases negative' <;> exact isAmount_pack_zero _
      | @positive d hd dpos =>
          rw [unpack_zero, unpack_positive hd dpos]
          exact .inl ⟨d.value, isAmount_pack_finite hd dpos⟩
  | @positive c hc cpos =>
      cases hy with
      | zero =>
          rw [unpack_positive hc cpos, unpack_zero]
          exact .inl ⟨c.value, isAmount_pack_finite hc cpos⟩
      | @positive d hd dpos =>
          obtain ⟨m, n, hm, hn, -, -⟩ := common_exponent cpos dpos
          obtain ⟨r, hround, hr, -⟩ :=
            normalize_spec (m := (m : ℤ) + n) (by omega) (min c.exponent d.exponent)
          rw [unpack_positive hc cpos, unpack_positive hd dpos, add_finite, hm, hn, hround]
          exact (isAmount_or_unbounded hr).imp_left fun h => ⟨_, h⟩

end Arithmetic

end RobotControl.Decimal
