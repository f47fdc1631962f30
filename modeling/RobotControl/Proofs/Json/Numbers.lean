import RobotControl.Json.Record
import RobotControl.Proofs.Json.Printing

/-!
Written numbers are number literals.

* `Json.splitNumber_of_parts`: digits, a fraction and an exponent are split off part by part.
* `Json.natural?_ofNat`: a whole number is read back if 64 bits hold it.
* `Json.isLiteral_or_null_pointed`: the text of a double is a number literal or `null`.
-/

namespace RobotControl.Json

open Decimal Text

/-! ### The parts of a literal -/

/-- Digits that may stand before a point: no zero leads others. -/
structure Whole (cs : List Char) : Prop where
  digits : Digits cs
  nonempty : cs ≠ []
  leading : cs.head? = some '0' → cs.length = 1

/-- A point and digits, or nothing. -/
inductive FractionText : Option (List Char) → List Char → Prop where
  | none : FractionText none []
  | some {digits : List Char} : Digits digits → digits ≠ [] →
      FractionText (some digits) ('.' :: digits)

/-- A mark with a sign and digits, or nothing. -/
inductive ExponentText : Option Int → List Char → Prop where
  | none : ExponentText none []
  | plus {digits : List Char} : Digits digits → digits ≠ [] →
      ExponentText (some (digitsValue digits)) ('e' :: '+' :: digits)
  | minus {digits : List Char} : Digits digits → digits ≠ [] →
      ExponentText (some (-digitsValue digits)) ('e' :: '-' :: digits)

theorem whole_cons {c : Char} {cs : List Char} (hdigits : Digits (c :: cs)) (hc : c ≠ '0') :
    Whole (c :: cs) :=
  ⟨hdigits, List.cons_ne_nil _ _, fun h => absurd (Option.some.inj h) hc⟩

theorem whole_zero : Whole ['0'] :=
  ⟨digits_replicate_zero 1, List.cons_ne_nil _ _, fun _ => rfl⟩

theorem whole_toDigits (n : ℕ) : Whole (Nat.toDigits 10 n) := by
  rcases Nat.eq_zero_or_pos n with rfl | hn
  · exact whole_zero
  · obtain ⟨c, cs, heq, hc⟩ := exists_cons_toDigits hn
    have hdigits := digits_toDigits n
    rw [heq] at hdigits ⊢
    exact whole_cons hdigits hc

section Splitting

variable {whole rest f e : List Char} {fraction : Option (List Char)} {exponent : Option Int}

/-- Where no number goes on, no digits go on either. -/
theorem Ends.digits (h : Ends rest) : ∀ c ∈ rest.head?, c.isDigit = false :=
  fun c hc => (h c hc).1

theorem splitExponent_of_text (he : ExponentText exponent e) (hr : Ends rest) :
    splitExponent (e ++ rest) = some (exponent, rest) := by
  cases he with
  | none =>
      cases rest with
      | nil => rfl
      | cons c cs =>
          obtain ⟨-, -, hsmall, hcapital⟩ := hr c rfl
          rw [List.nil_append, splitExponent, if_neg (by simp [hsmall, hcapital])]
  | @plus digits hdigits hsome =>
      have hempty : digits.isEmpty = false := List.isEmpty_eq_false_iff.mpr hsome
      show splitExponent ('e' :: '+' :: (digits ++ rest)) = _
      rw [splitExponent]
      simp only [splitSign, takeWhile_append_stop hdigits hr.digits,
        dropWhile_append_stop hdigits hr.digits, hempty]
      rfl
  | @minus digits hdigits hsome =>
      have hempty : digits.isEmpty = false := List.isEmpty_eq_false_iff.mpr hsome
      show splitExponent ('e' :: '-' :: (digits ++ rest)) = _
      rw [splitExponent]
      simp only [splitSign, takeWhile_append_stop hdigits hr.digits,
        dropWhile_append_stop hdigits hr.digits, hempty]
      rfl

/-- Behind the digits of a number stands an exponent, or what follows after the number. -/
theorem ExponentText.stops (he : ExponentText exponent e) (hr : Ends rest) :
    ∀ c ∈ (e ++ rest).head?, c.isDigit = false ∧ c ≠ '.' := by
  cases he with
  | none => exact fun c hc => ⟨(hr c hc).1, (hr c hc).2.1⟩
  | plus =>
      intro c hc
      cases hc
      decide
  | minus =>
      intro c hc
      cases hc
      decide

theorem splitFraction_of_text (hf : FractionText fraction f)
    (hr : ∀ c ∈ rest.head?, c.isDigit = false ∧ c ≠ '.') :
    splitFraction (f ++ rest) = some (fraction, rest) := by
  cases hf with
  | none =>
      cases rest with
      | nil => rfl
      | cons c cs =>
          have hpoint := (hr c rfl).2
          rw [List.nil_append]
          unfold splitFraction
          split
          · rename_i heq
            exact absurd (List.cons.inj heq).1 hpoint
          · rfl
  | @some digits hdigits hsome =>
      have hempty : digits.isEmpty = false := List.isEmpty_eq_false_iff.mpr hsome
      have hstop : ∀ c ∈ rest.head?, c.isDigit = false := fun c hc => (hr c hc).1
      rw [List.cons_append, splitFraction]
      simp only [takeWhile_append_stop hdigits hstop, dropWhile_append_stop hdigits hstop, hempty]
      rfl

/-- **A literal is split off part by part.** -/
theorem splitNumber_of_parts (hw : Whole whole) (hf : FractionText fraction f)
    (he : ExponentText exponent e) (hr : Ends rest) (negative : Bool) :
    splitNumber (signedText negative (whole ++ f ++ e) ++ rest) =
      some (⟨negative, whole, fraction, exponent⟩, rest) := by
  obtain ⟨hdigits, hsome, hleading⟩ := hw
  have hassoc : signedText negative (whole ++ f ++ e) ++ rest =
      signedText negative (whole ++ (f ++ (e ++ rest))) := by
    cases negative <;> simp [signedText]
  have hminus : ∀ cs, whole ++ (f ++ (e ++ rest)) ≠ '-' :: cs := by
    obtain ⟨d, ds, rfl⟩ := List.exists_cons_of_ne_nil hsome
    intro cs heq
    exact ne_of_isDigit (hdigits d List.mem_cons_self) rfl (List.cons.inj heq).1
  have hstop : ∀ c ∈ (f ++ (e ++ rest)).head?, c.isDigit = false := by
    cases hf with
    | none => exact fun c hc => (he.stops hr c hc).1
    | some =>
        intro c hc
        cases hc
        rfl
  have hempty : whole.isEmpty = false := List.isEmpty_eq_false_iff.mpr hsome
  have hzero : (whole.head? == some '0' && whole.length != 1) = false := by
    rw [Bool.and_eq_false_iff, beq_eq_false_iff_ne, bne_eq_false_iff_eq]
    exact imp_iff_not_or.mp hleading
  have htaken := takeWhile_append_stop hdigits hstop
  have hbehind := dropWhile_append_stop hdigits hstop
  have hfraction := splitFraction_of_text hf (he.stops hr)
  have hexponent := splitExponent_of_text he hr
  rw [hassoc]
  cases negative with
  | true =>
      show splitNumber ('-' :: (whole ++ (f ++ (e ++ rest)))) = _
      rw [splitNumber]
      simp only [htaken, hbehind, hempty, hzero, hfraction]
      show (splitExponent (e ++ rest) >>= _) = _
      rw [hexponent]
      rfl
  | false =>
      show splitNumber (whole ++ (f ++ (e ++ rest))) = _
      rw [splitNumber]
      · simp only [htaken, hbehind, hempty, hzero, hfraction]
        show (splitExponent (e ++ rest) >>= _) = _
        rw [hexponent]
        rfl
      · exact hminus

theorem isLiteral_of_parts (hw : Whole whole) (hf : FractionText fraction f)
    (he : ExponentText exponent e) (negative : Bool) :
    IsLiteral (signedText negative (whole ++ f ++ e)) := by
  refine ⟨?_, _, fun rest hr => splitNumber_of_parts hw hf he hr negative⟩
  obtain ⟨d, ds, rfl⟩ := List.exists_cons_of_ne_nil hw.nonempty
  cases negative with
  | true => exact ⟨_, _, rfl, .inl rfl⟩
  | false => exact ⟨_, _, rfl, .inr (hw.digits d List.mem_cons_self)⟩

end Splitting

/-! ### Whole numbers -/

theorem isLiteral_toDigits (n : ℕ) : IsLiteral (Nat.toDigits 10 n) := by
  have h := isLiteral_of_parts (whole_toDigits n) .none .none false
  rwa [List.append_nil, List.append_nil] at h

/-- **A whole number is read back if 64 bits hold it**, and is a double otherwise. -/
theorem natural?_ofNat (n : ℕ) : (ofNat n).natural? = if n < UInt64.size then some n else none := by
  have hsplit := splitNumber_of_parts (whole_toDigits n) .none .none ends_nil false
  rw [List.append_nil, List.append_nil, List.append_nil] at hsplit
  have hvalue : numberValue? (Nat.toDigits 10 n) =
      NumberParts.value? ⟨false, Nat.toDigits 10 n, none, none⟩ := by
    show (splitNumber (signedText false (Nat.toDigits 10 n))).bind _ = _
    rw [hsplit, Option.bind_some]
  rw [ofNat, natural?, hvalue, NumberParts.value?]
  simp only [digitsValue_toDigits, Bool.false_eq_true, if_false]
  by_cases hn : n < UInt64.size
  · have hsmall : n ≤ maxWord := Nat.le_sub_one_of_lt hn
    rw [if_pos hn, if_pos hsmall]
  · have hlarge : ¬ n ≤ maxWord := fun h => hn (Nat.lt_of_le_pred (by decide) h)
    rw [if_neg hn, if_neg hlarge]
    cases NumberParts.real? ⟨false, Nat.toDigits 10 n, none, none⟩ <;> rfl

theorem restored_ofNat (n : ℕ) : (ofNat n).restored = ofNat n :=
  if_neg (isLiteral_toDigits n).ne_null

/-! ### Doubles -/

section Doubles

variable {n : Numeral} {cs : List Char}

/-- The digits of a numeral other than zero may stand before a point, with zeros behind them. -/
theorem whole_of_leading (hdigits : Digits cs) (hsome : cs ≠ [])
    (hleading : ∀ c ∈ cs.head?, c ≠ '0') : Whole cs := by
  obtain ⟨c, rest, rfl⟩ := List.exists_cons_of_ne_nil hsome
  exact whole_cons hdigits (hleading c rfl)

theorem contains_point_of_digits (h : Digits cs) : cs.contains '.' = false := by
  rw [List.contains_eq_mem, decide_eq_false_iff_not]
  intro hpoint
  exact absurd (h '.' hpoint) (by decide)

theorem contains_point (xs ys : List Char) : (xs ++ '.' :: ys).contains '.' := by
  simp

/-- **A positional text has a point, or gets one, with digits on either side.** -/
theorem exists_parts_positional (hdigits : Digits n.digits)
    (hleading : ∀ c ∈ n.digits.head?, c ≠ '0') :
    ∃ whole fraction, Whole whole ∧ Digits fraction ∧ fraction ≠ [] ∧
      (if n.positional.contains '.' then n.positional else n.positional ++ ['.', '0']) =
        whole ++ '.' :: fraction := by
  have hzero : Digits ['0'] := digits_replicate_zero 1
  unfold Numeral.positional
  split
  · exact ⟨['0'], ['0'], whole_zero, hzero, List.cons_ne_nil _ _, rfl⟩
  · rename_i hempty
    have hsome : n.digits ≠ [] := fun h => hempty (List.isEmpty_iff.mpr h)
    split
    · refine ⟨['0'], List.replicate (-n.point).toNat '0' ++ n.digits, whole_zero,
        (digits_replicate_zero _).append hdigits, List.append_ne_nil_of_right_ne_nil _ hsome, ?_⟩
      exact if_pos (contains_point ['0'] _)
    · rename_i hpoint
      dsimp only
      split
      · have hall := hdigits.append (digits_replicate_zero (n.point.toNat - n.digits.length))
        refine ⟨_, ['0'], whole_of_leading hall (List.append_ne_nil_of_left_ne_nil hsome _) ?_,
          hzero, List.cons_ne_nil _ _, if_neg ?_⟩
        · rw [List.head?_append, Option.or_of_isSome (List.isSome_head?.mpr hsome)]
          exact hleading
        · rw [contains_point_of_digits hall]
          exact Bool.false_ne_true
      · rename_i hlength
        have hfirst : Digits (n.digits.take n.point.toNat) :=
          fun c hc => hdigits c (List.mem_of_mem_take hc)
        have hlast : Digits (n.digits.drop n.point.toNat) :=
          fun c hc => hdigits c (List.mem_of_mem_drop hc)
        refine ⟨_, _, whole_of_leading hfirst ?_ ?_, hlast, ?_, if_pos (contains_point _ _)⟩
        · rw [Ne, List.take_eq_nil_iff]
          rintro (hnone | hnil)
          · omega
          · exact hsome hnil
        · rw [List.head?_take, if_neg (by omega)]
          exact hleading
        · rw [Ne, List.drop_eq_nil_iff]
          exact hlength

/-- A scientific text has one digit before its point. -/
theorem exists_parts_scientific (hdigits : Digits n.digits) (hsome : n.digits ≠ [])
    (hleading : ∀ c ∈ n.digits.head?, c ≠ '0') :
    ∃ whole fraction f exponent e, Whole whole ∧ FractionText fraction f ∧
      ExponentText exponent e ∧ n.scientific = whole ++ f ++ e := by
  have hexponent : ∃ exponent, ExponentText exponent
      (['e', if n.point - 1 < 0 then '-' else '+'] ++ Nat.toDigits 10 (n.point - 1).natAbs) := by
    split
    · exact ⟨_, .minus (digits_toDigits _) Nat.toDigits_ne_nil⟩
    · exact ⟨_, .plus (digits_toDigits _) Nat.toDigits_ne_nil⟩
  obtain ⟨exponent, he⟩ := hexponent
  obtain ⟨_ | ⟨first, _ | ⟨second, rest⟩⟩, point⟩ := n
  · exact absurd rfl hsome
  · exact ⟨[first], none, [], exponent, _, whole_cons hdigits (hleading first rfl), .none, he, rfl⟩
  · have hfirst : Digits [first] := by
      intro c hc
      rw [List.mem_singleton.mp hc]
      exact hdigits first List.mem_cons_self
    have hbehind : Digits (second :: rest) := fun c hc => hdigits c (List.mem_cons_of_mem _ hc)
    refine ⟨[first], _, _, exponent, _, whole_cons hfirst (hleading first rfl),
      .some hbehind (List.cons_ne_nil _ _), he, ?_⟩
    simp [Numeral.scientific]

end Doubles

/-- No zero leads the digits of a numeral; those of zero are none. -/
theorem leading_ofNat (n : ℕ) (e : ℤ) : ∀ c ∈ (Numeral.ofNat n e).digits.head?, c ≠ '0' := by
  rcases Nat.eq_zero_or_pos n with rfl | hn
  · exact fun c hc => absurd hc (Option.not_mem_none c)
  · obtain ⟨d, ds, hdigits, hd⟩ := Numeral.exists_cons_ofNat hn e
    rw [hdigits]
    intro c hc
    cases hc
    exact hd

/-- **The text of a double is a number literal or `null`.** -/
theorem isLiteral_or_null_pointed (x : Float) :
    IsLiteral (pointed x) ∨ pointed x = ['n', 'u', 'l', 'l'] := by
  unfold pointed
  split
  · exact .inr rfl
  · exact .inr rfl
  · rename_i d _
    obtain ⟨n, e, hshortest⟩ : ∃ n e, d.shortest .even = Numeral.ofNat n e := ⟨_, _, rfl⟩
    have hdigits := Numeral.digits_ofNat n e
    have hleading := leading_ofNat n e
    left
    dsimp only
    rw [hshortest]
    split
    · obtain ⟨whole, fraction, hwhole, hfraction, hsome, heq⟩ :=
        exists_parts_positional hdigits hleading
      rw [heq, ← List.append_nil (_ ++ _)]
      exact isLiteral_of_parts hwhole (.some hfraction hsome) .none (isNegative x)
    · rename_i hform
      have hsome : (Numeral.ofNat n e).digits ≠ [] := by
        intro hnil
        rw [hnil] at hform
        exact hform rfl
      obtain ⟨whole, fraction, f, exponent, e, hwhole, hf, he, heq⟩ :=
        exists_parts_scientific hdigits hsome hleading
      rw [heq]
      exact isLiteral_of_parts hwhole hf he (isNegative x)

end RobotControl.Json
