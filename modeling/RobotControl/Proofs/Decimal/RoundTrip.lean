import RobotControl.Proofs.Decimal.Positional
import RobotControl.Proofs.Decimal.Shortest

/-!
Written numbers read back.

A finite double is written with the digits of a decimal that lies nearer to it than to any other
double, so the double nearest to what is written is the one that was written.

* `Literal.toFloat_of_covers`: a literal is the double that covers its value.
* `read?_plain`: the text of a finite double is read as this double.
-/

namespace RobotControl.Decimal

variable {d : Dyadic}

/-- A value that a double covers is not zero. -/
theorem Dyadic.Covers.pos {n : ℕ} {e : ℤ} (h : d.Covers (n * 10 ^ e)) (hc : d.Canonical)
    (hpos : 0 < d.mantissa) : 0 < n := by
  rw [Nat.pos_iff_ne_zero]
  rintro rfl
  have hrange := (h.range hc hpos).1
  rw [Nat.cast_zero, zero_mul] at hrange
  exact absurd hrange (not_lt_of_gt (zpow_pos (by norm_num) _))

/-- **A literal is the double that covers its value**, with its sign. -/
theorem Literal.toFloat_of_covers {l : Literal} (hc : d.Canonical) (hpos : 0 < d.mantissa)
    (h : d.Covers (digitsValue (l.whole ++ l.fraction) * 10 ^ (l.exponent - l.fraction.length))) :
    l.toFloat = ofDyadic l.negative d := by
  have hnearest := nearestFloat_of_covers (h.pos hc hpos) hc hpos h
  unfold Literal.toFloat
  rw [hnearest]
  cases l.negative with
  | false => rfl
  | true => exact neg_ofDyadic hc

/-- The text of a double that is not zero is read as this double. -/
theorem read?_shortest (tie : Tie) (negative : Bool) (hc : d.Canonical) (hpos : 0 < d.mantissa) :
    read? (signedText negative (d.shortest tie).positional) = some (ofDyadic negative d) := by
  obtain ⟨n, haccepts, hshortest⟩ := Dyadic.exists_accepted tie hpos
  have hcovers := Dyadic.covers_of_accepts haccepts
  have hdigits := Numeral.digits_ofNat n d.window.exponent
  have hne := Numeral.ofNat_digits_ne_nil (hcovers.pos hc hpos) d.window.exponent
  obtain ⟨whole, fraction, hpointed, hvalue⟩ := Numeral.exists_pointed hdigits hne
  rw [Numeral.value_ofNat] at hvalue
  rw [← hvalue] at hcovers
  rw [hshortest, read?_of_pointed hpointed, Literal.toFloat_of_covers hc hpos hcovers]

/-- Zero is written without a point and keeps its sign. -/
theorem read?_zero (negative : Bool) :
    read? (signedText negative ((⟨0, leastExponent⟩ : Dyadic).shortest .up).positional) =
      some (ofDyadic negative ⟨0, leastExponent⟩) := by
  cases negative <;> decide +kernel

/-- **The text of a finite double is read as this double.** -/
theorem read?_plain {x : Float} (h : x.isFinite) : read? (plain x) = some x := by
  obtain ⟨d, hd⟩ := exists_magnitude_of_isFinite h
  obtain ⟨-, hc⟩ := Dyadic.toBits_of_magnitude hd
  have hplain : plain x = signedText (isNegative x) (d.shortest .up).positional := by
    unfold plain
    rw [hd]
    rfl
  rw [hplain]
  by_cases hpos : 0 < d.mantissa
  · rw [read?_shortest .up _ hc hpos, ← eq_ofDyadic hd]
  · obtain rfl : d = ⟨0, leastExponent⟩ := hc.eq_zero (Nat.eq_zero_of_not_pos hpos)
    rw [read?_zero, ← eq_ofDyadic hd]

end RobotControl.Decimal
