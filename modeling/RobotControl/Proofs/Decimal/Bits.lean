import RobotControl.Proofs.Decimal.Rounding

/-!
The bits of a finite double.

From its lowest bit on, a double holds the mantissa without its leading bit, the exponent and the
sign. The leading bit would just carry into the exponent, so the bits are a sum.

* `Dyadic.bits`: the bits of a double with this mantissa and exponent.
* `Dyadic.toBits_of_magnitude`: a double with a finite magnitude has these bits.
* `Dyadic.Canonical.toNat_pack`, `Dyadic.Canonical.unpack_of_toBits`: packing makes these bits, and
  unpacking reads them.
* `eq_ofDyadic`: a finite double is its sign and its magnitude.
* `neg_ofDyadic`: negation changes the sign only.
-/

namespace RobotControl.Decimal

open Float.Model
open Float.Model.UnpackedFloat

/-! ### Fields -/

theorem toNat_packComponents (s : Sign) (e : BitVec 11) (m : BitVec 52) :
    (packComponents Format.binary64 s e m).toNat =
      s.toBitVec.toNat * 2 ^ 63 + e.toNat * 2 ^ 52 + m.toNat := by
  have hm := m.isLt
  have he := e.isLt
  unfold packComponents
  rw [BitVec.toNat_append, BitVec.toNat_append, ← Nat.shiftLeft_add_eq_or_of_lt hm,
    ← Nat.shiftLeft_add_eq_or_of_lt he]
  simp only [Nat.shiftLeft_eq]
  omega

theorem toNat_unpackExponent (b : BitVec 64) :
    (@unpackExponent Format.binary64 b).toNat = b.toNat / 2 ^ 52 % 2 ^ 11 := by
  simp [unpackExponent, BitVec.extractLsb_toNat, Nat.shiftRight_eq_div_pow]

theorem toNat_unpackMantissa (b : BitVec 64) :
    (@unpackMantissa Format.binary64 b).toNat = b.toNat % 2 ^ 52 := by
  simp [unpackMantissa, BitVec.extractLsb_toNat]

theorem toNat_unpackSign (b : BitVec 64) :
    (@unpackSign Format.binary64 b).toNat = b.toNat / 2 ^ 63 % 2 := by
  show (b.extractLsb 63 63).toNat = _
  simp [BitVec.extractLsb_toNat, Nat.shiftRight_eq_div_pow]

theorem toNat_exponentField (b : UInt64) :
    ((b >>> 52) &&& 0x7ff).toNat = b.toNat / 2 ^ 52 % 2 ^ 11 := by
  rw [UInt64.toNat_and, UInt64.toNat_shiftRight]
  show (b.toNat >>> 52) &&& (2 ^ 11 - 1) = _
  rw [Nat.and_two_pow_sub_one_eq_mod, Nat.shiftRight_eq_div_pow]

theorem toNat_fractionField (b : UInt64) : (b &&& 0xfffffffffffff).toNat = b.toNat % 2 ^ 52 := by
  rw [UInt64.toNat_and]
  show b.toNat &&& (2 ^ 52 - 1) = _
  rw [Nat.and_two_pow_sub_one_eq_mod]

theorem isNegative_iff {x : Float} : isNegative x ↔ x.toBits.toNat / 2 ^ 63 = 1 := by
  unfold isNegative
  rw [beq_iff_eq, ← UInt64.toNat_inj, UInt64.toNat_shiftRight]
  show (x.toBits.toNat >>> 63 = 1) ↔ _
  rw [Nat.shiftRight_eq_div_pow]

/-- The magnitude of a double in terms of its bits as a number. -/
theorem magnitude_eq (x : Float) :
    magnitude x =
      if x.toBits.toNat / 2 ^ 52 % 2 ^ 11 = 0x7ff then
        if x.toBits.toNat % 2 ^ 52 = 0 then .infinite else .notANumber
      else if x.toBits.toNat / 2 ^ 52 % 2 ^ 11 = 0 then
        .finite ⟨x.toBits.toNat % 2 ^ 52, leastExponent⟩
      else
        .finite ⟨2 ^ 52 + x.toBits.toNat % 2 ^ 52,
          leastExponent + ((x.toBits.toNat / 2 ^ 52 % 2 ^ 11 : ℕ) - 1)⟩ := by
  rw [← toNat_exponentField, ← toNat_fractionField]
  rfl

/-- The sign bit is the highest one. -/
theorem sign_eq (x : Float) :
    (if isNegative x then 2 ^ 63 else 0) = x.toBits.toNat / 2 ^ 63 * 2 ^ 63 := by
  have hlt := x.toBits.toNat_lt
  split
  · rename_i hneg
    rw [isNegative_iff.mp hneg, one_mul]
  · rename_i hpos
    rw [isNegative_iff] at hpos
    omega

/-! ### The bits of a magnitude -/

namespace Dyadic

variable {d : Dyadic} {negative : Bool} {x : Float} {n : ℕ}

/-- The bits of the double with this sign and magnitude. -/
def bits (negative : Bool) (d : Dyadic) : ℕ :=
  (if negative then 2 ^ 63 else 0) + (d.exponent - leastExponent).toNat * 2 ^ 52 + d.mantissa

theorem canonical_subnormal {fraction : ℕ} (h : fraction < 2 ^ 52) :
    Canonical ⟨fraction, leastExponent⟩ :=
  ⟨h.trans (by decide), .inr rfl, le_rfl, (by decide : leastExponent ≤ 971)⟩

theorem canonical_normal {fraction field : ℕ} (h : fraction < 2 ^ 52) (hpos : 0 < field)
    (hlt : field < 2047) :
    Canonical ⟨2 ^ 52 + fraction, leastExponent + ((field : ℤ) - 1)⟩ := by
  unfold leastExponent
  constructor
  · dsimp only
    omega
  · exact .inl (Nat.le_add_right _ _)
  · dsimp only [leastExponent]
    omega
  · dsimp only
    omega

/-- A double with a finite magnitude has the bits of this magnitude. -/
theorem toBits_of_magnitude (h : magnitude x = .finite d) :
    x.toBits.toNat = d.bits (isNegative x) ∧ d.Canonical := by
  have hlt := x.toBits.toNat_lt
  have hfraction : x.toBits.toNat % 2 ^ 52 < 2 ^ 52 := Nat.mod_lt _ (by decide)
  rw [magnitude_eq] at h
  unfold bits
  rw [sign_eq]
  split at h
  · split at h <;> cases h
  · rename_i hones
    split at h
    · rename_i hzero
      obtain rfl := Magnitude.finite.inj h
      refine ⟨?_, canonical_subnormal hfraction⟩
      rw [sub_self, Int.toNat_zero]
      dsimp only
      omega
    · rename_i hsome
      obtain rfl := Magnitude.finite.inj h
      refine ⟨?_, canonical_normal hfraction (Nat.pos_of_ne_zero hsome) (by omega)⟩
      rw [add_sub_cancel_left]
      dsimp only
      omega

/-- The three fields in the bits of a double. -/
theorem Canonical.fields (hc : d.Canonical) (h : n = d.bits negative) :
    n / 2 ^ 63 % 2 = (if negative then 1 else 0) ∧
      ((d.mantissa < 2 ^ 52 ∧ d.exponent = leastExponent ∧
          n / 2 ^ 52 % 2 ^ 11 = 0 ∧ n % 2 ^ 52 = d.mantissa) ∨
        (2 ^ 52 ≤ d.mantissa ∧ n / 2 ^ 52 % 2 ^ 11 ≠ 0 ∧ n / 2 ^ 52 % 2 ^ 11 ≠ 0x7ff ∧
          d.exponent = leastExponent + ((n / 2 ^ 52 % 2 ^ 11 : ℕ) - 1) ∧
          d.mantissa = 2 ^ 52 + n % 2 ^ 52)) := by
  obtain ⟨hbelow, hnormal, hleast, hmost⟩ := hc
  have hleastEq : leastExponent = -1074 := rfl
  unfold bits at h
  by_cases hm : d.mantissa < 2 ^ 52
  · have he := hnormal.resolve_left (by omega)
    have hzero : (d.exponent - leastExponent).toNat = 0 := by omega
    rw [hzero] at h
    cases negative <;> simp only [Bool.false_eq_true, if_true, if_false] at h ⊢ <;>
      refine ⟨by omega, .inl ⟨hm, he, by omega, by omega⟩⟩
  · have hexp : ((d.exponent - leastExponent).toNat : ℤ) = d.exponent - leastExponent :=
      Int.toNat_of_nonneg (by omega)
    cases negative <;> simp only [Bool.false_eq_true, if_true, if_false] at h ⊢ <;>
      refine ⟨by omega, .inr ⟨by omega, by omega, by omega, by omega, by omega⟩⟩

/-! ### Packing and unpacking -/

/-- The number with a sign, as arithmetic on doubles has it. -/
def signed (negative : Bool) (d : Dyadic) : UnpackedFloat :=
  if h : 0 < d.mantissa then
    .finite (if negative then .negative else .positive) d.mantissa d.exponent h
  else .zero (if negative then .negative else .positive)

theorem signed_pos (d : Dyadic) (negative : Bool) (h : 0 < d.mantissa) : d.signed negative =
    .finite (if negative then .negative else .positive) d.mantissa d.exponent h :=
  dif_pos h

theorem signed_zero (d : Dyadic) (negative : Bool) (h : ¬ 0 < d.mantissa) :
    d.signed negative = .zero (if negative then .negative else .positive) :=
  dif_neg h

theorem sign_ofBitVec_eq {b : BitVec 1} (h : b.toNat = if negative then 1 else 0) :
    Sign.ofBitVec b = if negative then .negative else .positive := by
  have hb : b = if negative then 1#1 else 0#1 := by
    apply BitVec.eq_of_toNat_eq
    rw [h]
    cases negative <;> rfl
  rw [hb]
  cases negative <;> rfl

theorem toNat_sign_toBitVec (negative : Bool) :
    (if negative then Sign.negative else Sign.positive).toBitVec.toNat =
      if negative then 1 else 0 := by
  cases negative <;> rfl

theorem toNat_implicit_append (m : BitVec 52) : (1#1 ++ m).toNat = 2 ^ 52 + m.toNat := by
  rw [BitVec.toNat_append, ← Nat.shiftLeft_add_eq_or_of_lt m.isLt]
  rfl

/-- The bits of a double unpack to its sign and its magnitude. -/
theorem Canonical.unpack_of_toBits (hc : d.Canonical) (h : x.toBits.toNat = d.bits negative) :
    x.toModel.unpack = d.signed negative := by
  obtain ⟨hsign, hfields⟩ := hc.fields h
  have hexponent := toNat_unpackExponent x.toBits.toBitVec
  have hmantissa := toNat_unpackMantissa x.toBits.toBitVec
  have hsignBit := sign_ofBitVec_eq ((toNat_unpackSign x.toBits.toBitVec).trans hsign)
  rw [UInt64.toNat_toBitVec] at hexponent hmantissa
  show UnpackedFloat.unpack Format.binary64 x.toBits.toBitVec = _
  rcases hfields with ⟨hm, he, hzero, hfraction⟩ | ⟨hm, hzero, hones, he, hfraction⟩
  · have hfield : @unpackExponent Format.binary64 x.toBits.toBitVec = 0#11 := by
      apply BitVec.eq_of_toNat_eq
      rw [hexponent, hzero]
      rfl
    rw [hfraction] at hmantissa
    have hnotOnes : @unpackExponent Format.binary64 x.toBits.toBitVec ≠ -1#11 := by
      rw [hfield]
      decide
    unfold UnpackedFloat.unpack signed
    rw [if_neg hnotOnes, if_pos hfield, hsignBit]
    by_cases hpos : 0 < d.mantissa
    · have hsome : @unpackMantissa Format.binary64 x.toBits.toBitVec ≠ 0#52 := by
        intro hnone
        rw [hnone] at hmantissa
        exact hpos.ne hmantissa
      rw [dif_pos hpos, dif_neg hsome, UnpackedFloat.finite.injEq]
      refine ⟨rfl, hmantissa, ?_⟩
      rw [hfield, he]
      rfl
    · have hnone : @unpackMantissa Format.binary64 x.toBits.toBitVec = 0#52 := by
        apply BitVec.eq_of_toNat_eq
        rw [hmantissa]
        exact Nat.eq_zero_of_not_pos hpos
      rw [dif_neg hpos, dif_pos hnone]
  · have hnotZero : @unpackExponent Format.binary64 x.toBits.toBitVec ≠ 0#11 := by
      intro hfield
      rw [hfield] at hexponent
      exact hzero hexponent.symm
    have hnotOnes : @unpackExponent Format.binary64 x.toBits.toBitVec ≠ -1#11 := by
      intro hfield
      rw [hfield] at hexponent
      exact hones hexponent.symm
    have hpos : 0 < d.mantissa := by omega
    unfold UnpackedFloat.unpack signed
    rw [if_neg hnotOnes, if_neg hnotZero, dif_pos hpos, hsignBit, UnpackedFloat.finite.injEq]
    refine ⟨rfl, ?_, ?_⟩
    · show (1#1 ++ @unpackMantissa Format.binary64 x.toBits.toBitVec).toNat = d.mantissa
      rw [toNat_implicit_append, hmantissa, hfraction]
    · rw [hexponent, he]
      show ((_ : ℕ) : ℤ) - ((1023 : ℕ) + (52 : ℕ)) = -1074 + (_ - 1)
      omega

/-- The sum of the fields is what packing puts side by side. -/
theorem Canonical.toNat_pack (hc : d.Canonical) :
    (Float.Model.pack (d.signed negative)).toBits.toNat = d.bits negative := by
  obtain ⟨hbelow, hnormal, hleast, hmost⟩ := hc
  show (UnpackedFloat.pack Format.binary64 (d.signed negative)).toNat = _
  have hleastEq : leastExponent = -1074 := rfl
  have hbias : (Format.binary64.exponentBias : ℤ) = 1023 := rfl
  by_cases hpos : 0 < d.mantissa
  · have hexp : (d.exponent + Format.binary64.exponentBias + 52).toNat =
        (d.exponent - leastExponent).toNat + 1 := by omega
    have hfits : ¬ 2 ^ 11 ≤ (d.exponent - leastExponent).toNat + 1 + 1 := by omega
    rw [d.signed_pos negative hpos]
    unfold UnpackedFloat.pack
    dsimp only
    simp only [Nat.cast_ofNat, hexp]
    rw [if_neg hfits]
    by_cases hm : 2 ^ 52 ≤ d.mantissa
    · have hlog : d.mantissa.log2 + 1 = Format.binary64.mantissaBits :=
        congrArg (· + 1) ((Nat.log2_eq_iff hpos.ne').mpr ⟨hm, hbelow⟩)
      rw [if_pos hlog, toNat_packComponents, toNat_sign_toBitVec, BitVec.toNat_ofNat,
        BitVec.toNat_ofNat]
      unfold bits
      cases negative <;> simp only [Bool.false_eq_true, if_true, if_false] <;> omega
    · have hlog : d.mantissa.log2 + 1 ≠ Format.binary64.mantissaBits := by
        have hlt := (Nat.log2_lt hpos.ne').mpr (Nat.lt_of_not_le hm)
        show d.mantissa.log2 + 1 ≠ 53
        omega
      have he := hnormal.resolve_left hm
      rw [if_neg hlog, toNat_packComponents, toNat_sign_toBitVec, BitVec.toNat_ofNat,
        BitVec.toNat_ofNat]
      unfold bits
      cases negative <;> simp only [Bool.false_eq_true, if_true, if_false] <;> omega
  · have hzero : d.mantissa = 0 := by omega
    have he := hnormal.resolve_left (by omega)
    rw [d.signed_zero negative hpos]
    show (packComponents Format.binary64 _ 0#11 0#52).toNat = _
    rw [toNat_packComponents, toNat_sign_toBitVec, BitVec.toNat_ofNat, BitVec.toNat_ofNat]
    unfold bits
    rw [he, hzero, sub_self]
    cases negative <;> rfl

end Dyadic

/-! ### Doubles from magnitudes -/

/-- The double with this sign and magnitude. -/
def ofDyadic (negative : Bool) (d : Dyadic) : Float :=
  .ofModel (.pack (d.signed negative))

theorem eq_of_toNat_toBits {x y : Float} (h : x.toBits.toNat = y.toBits.toNat) : x = y := by
  obtain ⟨⟨b, _⟩⟩ := x
  obtain ⟨⟨c, _⟩⟩ := y
  obtain rfl : b = c := UInt64.toNat_inj.mp h
  rfl

/-- **A finite double is its sign and its magnitude.** -/
theorem eq_ofDyadic {x : Float} {d : Dyadic} (h : magnitude x = .finite d) :
    x = ofDyadic (isNegative x) d := by
  obtain ⟨hbits, hc⟩ := Dyadic.toBits_of_magnitude h
  exact eq_of_toNat_toBits (hbits.trans hc.toNat_pack.symm)

theorem unpack_ofDyadic {d : Dyadic} (hc : d.Canonical) (negative : Bool) :
    (ofDyadic negative d).toModel.unpack = d.signed negative :=
  hc.unpack_of_toBits hc.toNat_pack

/-- **Negation changes the sign only.** -/
theorem neg_ofDyadic {d : Dyadic} (hc : d.Canonical) : -ofDyadic false d = ofDyadic true d := by
  show Float.ofModel (.pack (ofDyadic false d).toModel.unpack.neg) = _
  rw [unpack_ofDyadic hc, ofDyadic]
  by_cases hpos : 0 < d.mantissa
  · rw [d.signed_pos false hpos, d.signed_pos true hpos]
    rfl
  · rw [d.signed_zero false hpos, d.signed_zero true hpos]
    rfl

theorem exponentField_of_isFinite {x : Float} (h : x.isFinite) :
    x.toBits.toNat / 2 ^ 52 % 2 ^ 11 ≠ 0x7ff := by
  intro hones
  have hfield : @unpackExponent Format.binary64 x.toBits.toBitVec = -1#11 := by
    apply BitVec.eq_of_toNat_eq
    rw [toNat_unpackExponent]
    exact hones
  have hfinite : (UnpackedFloat.unpack Format.binary64 x.toBits.toBitVec).isFinite = true := h
  unfold UnpackedFloat.unpack at hfinite
  rw [if_pos hfield] at hfinite
  split at hfinite <;> cases hfinite

/-- A finite double has a finite magnitude. -/
theorem exists_magnitude_of_isFinite {x : Float} (h : x.isFinite) :
    ∃ d, magnitude x = .finite d := by
  rw [magnitude_eq, if_neg (exponentField_of_isFinite h)]
  split
  · exact ⟨_, rfl⟩
  · exact ⟨_, rfl⟩

end RobotControl.Decimal
