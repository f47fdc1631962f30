import Mathlib.Algebra.Order.Field.Power
import Mathlib.Tactic.IntervalCases
import Mathlib.Tactic.Ring
import RobotControl.Decimal.Literal
import RobotControl.Decimal.Written
import RobotControl.Proofs.Text.Trimming

/-!
Positional text.

The zeros that a positional text adds to the digits of a numeral, on either side of them, and the
place of the point keep its value.

* `Pointed`: a text of digits that may have a point among them.
* `read?_of_pointed`: such a text is read digit by digit.
* `Numeral.value_ofNat`: zeros at the end of a whole number go into the exponent.
* `Numeral.exists_pointed`: the positional text of a numeral is such a text and has its value.
-/

namespace RobotControl.Decimal

open Text

/-! ### Digits -/

theorem isDigit_bounds {c : Char} (h : c.isDigit) : 48 ≤ c.toNat ∧ c.toNat ≤ 57 := by
  unfold Char.isDigit at h
  rw [Bool.and_eq_true, decide_eq_true_iff, decide_eq_true_iff] at h
  exact h

/-- A digit has no case. -/
theorem toLower_of_isDigit {c : Char} (h : c.isDigit) : c.toLower = c := by
  refine dif_neg ?_
  rintro ⟨above, -⟩
  have hcapital : 65 ≤ c.toNat := above
  have hdigit := isDigit_bounds h
  omega

/-- Every character is a digit. -/
def Digits (cs : List Char) : Prop :=
  ∀ c ∈ cs, c.isDigit

theorem Digits.append {xs ys : List Char} (hx : Digits xs) (hy : Digits ys) :
    Digits (xs ++ ys) := by
  intro c hc
  rcases List.mem_append.mp hc with h | h
  · exact hx c h
  · exact hy c h

theorem digits_replicate_zero (n : ℕ) : Digits (List.replicate n '0') := by
  intro c hc
  rw [List.eq_of_mem_replicate hc]
  rfl

theorem digitsValue_eq (cs : List Char) : digitsValue cs = Nat.ofDigitChars 10 cs 0 :=
  Nat.ofDigitChars_eq_foldl.symm

theorem digitsValue_append (xs ys : List Char) :
    digitsValue (xs ++ ys) = digitsValue xs * 10 ^ ys.length + digitsValue ys := by
  rw [digitsValue_eq, digitsValue_eq, digitsValue_eq, Nat.ofDigitChars_append,
    Nat.ofDigitChars_eq_ofDigitChars_zero, mul_comm]

theorem digitsValue_replicate_zero (n : ℕ) : digitsValue (List.replicate n '0') = 0 := by
  rw [digitsValue_eq, Nat.ofDigitChars_replicate_zero, mul_zero]

theorem digitsValue_toDigits (n : ℕ) : digitsValue (Nat.toDigits 10 n) = n := by
  rw [digitsValue_eq, Nat.ofDigitChars_ten_toDigits]

/-- No zero leads the digits of a number that is not zero. -/
theorem exists_cons_toDigits {n : ℕ} (hn : 0 < n) :
    ∃ c cs, Nat.toDigits 10 n = c :: cs ∧ c ≠ '0' := by
  induction n using Nat.strong_induction_on with
  | h n ih =>
      by_cases hsmall : n < 10
      · refine ⟨n.digitChar, [], Nat.toDigits_of_lt_base hsmall, ?_⟩
        interval_cases n <;> decide
      · obtain ⟨c, cs, hleading, hc⟩ := ih (n / 10) (by omega) (by omega)
        refine ⟨c, cs ++ [(n % 10).digitChar], ?_, hc⟩
        rw [Nat.toDigits_of_base_le (by norm_num) (by omega), hleading, List.cons_append]

theorem digits_toDigits (n : ℕ) : Digits (Nat.toDigits 10 n) :=
  fun _ hc => Nat.isDigit_of_mem_toDigits (by norm_num) le_rfl hc

/-! ### Reading -/

/-- The text has these digits before its point and those behind it. Without digits behind the point
there is none. -/
structure Pointed (cs whole fraction : List Char) : Prop where
  before : Digits whole
  beforeNonempty : whole ≠ []
  behind : Digits fraction
  text : cs = whole ∧ fraction = [] ∨ cs = whole ++ '.' :: fraction

/-- A text with its sign; no sign is written for a number that is not negative. -/
def signedText (negative : Bool) (cs : List Char) : List Char :=
  if negative then '-' :: cs else cs

namespace Pointed

variable {cs whole fraction : List Char}

theorem exists_cons (h : Pointed cs whole fraction) : ∃ c rest, cs = c :: rest ∧ c.isDigit := by
  obtain ⟨hwhole, hsome, -, htext⟩ := h
  obtain ⟨c, digits, rfl⟩ := List.exists_cons_of_ne_nil hsome
  have hc := hwhole c List.mem_cons_self
  rcases htext with ⟨rfl, -⟩ | rfl
  · exact ⟨c, digits, rfl, hc⟩
  · exact ⟨c, _, rfl, hc⟩

theorem splitSign_signedText (h : Pointed cs whole fraction) (negative : Bool) :
    splitSign (signedText negative cs) = (negative, cs) := by
  obtain ⟨c, rest, rfl, hdigit⟩ := h.exists_cons
  cases negative with
  | true => rfl
  | false =>
      show splitSign (c :: rest) = _
      unfold splitSign
      split
      · rename_i heq
        cases heq
        cases hdigit
      · rename_i heq
        cases heq
        cases hdigit
      · rfl

/-- No word for a number begins with a digit. -/
theorem map_toLower_ne (h : Pointed cs whole fraction) {letter : Char} (word : List Char)
    (hletter : letter.isDigit = false) : (cs.map Char.toLower == letter :: word) = false := by
  obtain ⟨c, rest, rfl, hdigit⟩ := h.exists_cons
  rw [beq_eq_false_iff_ne]
  intro heq
  obtain ⟨rfl, -⟩ := List.cons.inj heq
  rw [toLower_of_isDigit hdigit, hdigit] at hletter
  cases hletter

theorem literal (h : Pointed cs whole fraction) (negative : Bool) :
    Literal.read? (signedText negative cs) = some ⟨negative, whole, fraction, 0⟩ := by
  have hsign := h.splitSign_signedText negative
  obtain ⟨hwhole, hsome, hfraction, htext⟩ := h
  have hempty : whole.isEmpty = false := List.isEmpty_eq_false_iff.mpr hsome
  unfold Literal.read?
  rcases htext with ⟨rfl, rfl⟩ | rfl
  · have hall : cs.takeWhile Char.isDigit = cs := List.takeWhile_eq_self_iff.mpr hwhole
    have hnone : cs.dropWhile Char.isDigit = [] := List.dropWhile_eq_nil_iff.mpr hwhole
    simp only [hsign, hall, hnone, hempty, Bool.false_and, Bool.false_eq_true, if_false]
  · have hstop : ∀ c ∈ ('.' :: fraction).head?, c.isDigit = false := by
      intro c hc
      cases hc
      rfl
    have hall : fraction.takeWhile Char.isDigit = fraction :=
      List.takeWhile_eq_self_iff.mpr hfraction
    have hnone : fraction.dropWhile Char.isDigit = [] := List.dropWhile_eq_nil_iff.mpr hfraction
    simp only [hsign, takeWhile_append_stop hwhole hstop, dropWhile_append_stop hwhole hstop, hall,
      hnone, hempty, Bool.false_and, Bool.false_eq_true, if_false]

end Pointed

/-- **A text of digits is read digit by digit.** -/
theorem read?_of_pointed {cs whole fraction : List Char} (h : Pointed cs whole fraction)
    (negative : Bool) :
    read? (signedText negative cs) = some (Literal.toFloat ⟨negative, whole, fraction, 0⟩) := by
  unfold read?
  simp only [h.splitSign_signedText]
  rw [h.map_toLower_ne _ rfl, h.map_toLower_ne _ rfl, h.map_toLower_ne _ rfl, h.literal]
  rfl

/-! ### Numerals -/

namespace Numeral

/-- The number that a numeral stands for. -/
def value (n : Numeral) : ℚ :=
  digitsValue n.digits * 10 ^ (n.point - n.digits.length)

theorem exists_zeros (cs : List Char) :
    ∃ zeros, cs = (cs.reverse.dropWhile (· == '0')).reverse ++ List.replicate zeros '0' := by
  have hzeros : cs.reverse.takeWhile (· == '0') =
      List.replicate (cs.reverse.takeWhile (· == '0')).length '0' := by
    rw [List.eq_replicate_iff]
    exact ⟨rfl, fun c hc => beq_iff_eq.mp (List.mem_takeWhile_imp (p := (· == '0')) hc)⟩
  refine ⟨(cs.reverse.takeWhile (· == '0')).length, ?_⟩
  rw [← List.reverse_replicate, ← hzeros, ← List.reverse_append, List.takeWhile_append_dropWhile,
    List.reverse_reverse]

/-- The digits of a numeral are those of the whole number without zeros at the end. -/
theorem ofNat_digits (n : ℕ) (e : ℤ) :
    ∃ zeros, Nat.toDigits 10 n = (ofNat n e).digits ++ List.replicate zeros '0' :=
  exists_zeros _

theorem digits_ofNat (n : ℕ) (e : ℤ) : Digits (ofNat n e).digits := by
  obtain ⟨zeros, hzeros⟩ := ofNat_digits n e
  intro c hc
  refine digits_toDigits n c ?_
  rw [hzeros]
  exact List.mem_append_left _ hc

theorem ofNat_digits_ne_nil {n : ℕ} (hn : 0 < n) (e : ℤ) : (ofNat n e).digits ≠ [] := by
  intro hnil
  obtain ⟨zeros, hzeros⟩ := ofNat_digits n e
  have hvalue := digitsValue_toDigits n
  rw [hzeros, hnil, List.nil_append, digitsValue_replicate_zero] at hvalue
  exact hn.ne hvalue

/-- No zero leads the digits of a numeral. -/
theorem exists_cons_ofNat {n : ℕ} (hn : 0 < n) (e : ℤ) :
    ∃ c cs, (ofNat n e).digits = c :: cs ∧ c ≠ '0' := by
  obtain ⟨c, cs, hleading, hc⟩ := exists_cons_toDigits hn
  obtain ⟨zeros, hzeros⟩ := ofNat_digits n e
  obtain ⟨d, ds, hdigits⟩ := List.exists_cons_of_ne_nil (ofNat_digits_ne_nil hn e)
  rw [hleading, hdigits, List.cons_append] at hzeros
  obtain ⟨rfl, -⟩ := List.cons.inj hzeros
  exact ⟨c, ds, hdigits, hc⟩

/-- **Zeros at the end of a whole number go into the exponent.** -/
theorem value_ofNat (n : ℕ) (e : ℤ) : (ofNat n e).value = n * 10 ^ e := by
  obtain ⟨zeros, hzeros⟩ := ofNat_digits n e
  have hvalue := digitsValue_toDigits n
  have hlength := congrArg List.length hzeros
  rw [hzeros, digitsValue_append, digitsValue_replicate_zero, List.length_replicate,
    add_zero] at hvalue
  rw [List.length_append, List.length_replicate] at hlength
  have hpoint : (ofNat n e).point - (ofNat n e).digits.length = zeros + e := by
    show ((Nat.toDigits 10 n).length : ℤ) + e - _ = _
    rw [hlength]
    push_cast
    ring
  have hn : (n : ℚ) = digitsValue (ofNat n e).digits * 10 ^ zeros := by exact_mod_cast hvalue.symm
  rw [value, hpoint, zpow_add₀ (by norm_num), zpow_natCast, hn]
  ring

/-- **The positional text of a numeral has its value.** -/
theorem exists_pointed {n : Numeral} (hdigits : Digits n.digits) (hne : n.digits ≠ []) :
    ∃ whole fraction, Pointed n.positional whole fraction ∧
      (digitsValue (whole ++ fraction) : ℚ) * 10 ^ (0 - fraction.length : ℤ) = n.value := by
  have hempty : n.digits.isEmpty = false := List.isEmpty_eq_false_iff.mpr hne
  unfold positional value
  simp only [hempty, Bool.false_eq_true, if_false]
  split
  · -- Zeros stand between the point and the digits.
    rename_i hpoint
    have hzeros := (digits_replicate_zero (-n.point).toNat).append hdigits
    refine ⟨['0'], List.replicate (-n.point).toNat '0' ++ n.digits,
      ⟨digits_replicate_zero 1, List.cons_ne_nil _ _, hzeros, .inr rfl⟩, ?_⟩
    have hexponent : (0 : ℤ) - (List.replicate (-n.point).toNat '0' ++ n.digits).length =
        n.point - n.digits.length := by
      rw [List.length_append, List.length_replicate]
      omega
    have hzero : digitsValue ['0'] = 0 := rfl
    rw [hexponent, digitsValue_append, digitsValue_append, digitsValue_replicate_zero, hzero,
      zero_mul, zero_mul, zero_add, zero_add]
  · rename_i hpoint
    obtain ⟨whole, hwhole⟩ := Int.eq_ofNat_of_zero_le (by omega : 0 ≤ n.point)
    rw [hwhole, Int.toNat_natCast]
    split
    · -- Zeros stand between the digits and the place of the point.
      rename_i hlength
      have hzeros := hdigits.append (digits_replicate_zero (whole - n.digits.length))
      refine ⟨_, [], ⟨hzeros, List.append_ne_nil_of_left_ne_nil hne _,
        fun _ hc => absurd hc List.not_mem_nil, .inl ⟨rfl, rfl⟩⟩, ?_⟩
      have hexponent : ((whole : ℤ) - n.digits.length) = (whole - n.digits.length : ℕ) := by omega
      rw [List.append_nil, digitsValue_append, digitsValue_replicate_zero, List.length_replicate,
        hexponent, zpow_natCast, List.length_nil, Nat.cast_zero, sub_zero, zpow_zero, mul_one,
        add_zero]
      push_cast
      rfl
    · rename_i hlength
      have hfirst : Digits (n.digits.take whole) := fun c hc => hdigits c (List.mem_of_mem_take hc)
      have hlast : Digits (n.digits.drop whole) := fun c hc => hdigits c (List.mem_of_mem_drop hc)
      have hsome : n.digits.take whole ≠ [] := by
        rw [Ne, List.take_eq_nil_iff]
        rintro (hzero | hnil)
        · omega
        · exact hne hnil
      refine ⟨_, _, ⟨hfirst, hsome, hlast, .inr rfl⟩, ?_⟩
      have hexponent : (0 : ℤ) - (n.digits.drop whole).length = whole - n.digits.length := by
        rw [List.length_drop]
        omega
      rw [hexponent, List.take_append_drop]

end Numeral

end RobotControl.Decimal
