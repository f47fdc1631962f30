import RobotControl.Proofs.CommandLine.Formatting
import RobotControl.Proofs.Decimal.Amounts
import RobotControl.Source.Fingerprint

/-!
Texts of equal trees.

Trees are compared node by node, and amounts as numbers. A number has one text, but the two zeros are
equal and have two: the text of a zero keeps its sign. Nothing else can tell the texts of equal trees
apart, however the sources were written.

* `Decimal.eq_of_beq`: finite doubles that are equal as numbers are the same if they have one sign.
* `Decimal.isNegative_eq_of_beq`: they have one sign unless they are zero.
* `Program.agrees_amounts`, `Program.eq_of_agrees`: equal trees have equal amounts in the same places,
  and they are the same tree if these amounts are the same.
* `Program.text_eq_iff_of_agrees`: equal trees that were read have one compact text, and one
  fingerprint, exactly if their zeros have the same signs.
* `Program.exists_agrees_text_ne`: there are equal trees with two texts and two fingerprints.
-/

namespace RobotControl

open Source Text

/-! ### Equal numbers -/

namespace Decimal

open Float.Model

variable {x y : Float} {c d : Dyadic}

theorem beq_iff_compare : x == y ↔ x.toModel.unpack.compare y.toModel.unpack = some .eq := by
  show (x.toModel.unpack.compare y.toModel.unpack == some .eq) = true ↔ _
  exact beq_iff_eq

theorem unpack_of_magnitude (h : magnitude x = .finite d) :
    x.toModel.unpack = d.signed (isNegative x) := by
  rw [← unpack_ofDyadic (Dyadic.toBits_of_magnitude h).2, ← eq_ofDyadic h]

/-- Two canonical magnitudes with signs are the same number only if they are the same magnitude, and
have the same sign unless they are zero. -/
theorem Dyadic.Canonical.eq_of_compare (hc : c.Canonical) (hd : d.Canonical) {m n : Bool}
    (h : (c.signed m).compare (d.signed n) = some .eq) :
    c = d ∧ (m = n ∨ c = ⟨0, leastExponent⟩) := by
  by_cases cpos : 0 < c.mantissa
  · by_cases dpos : 0 < d.mantissa
    · rw [c.signed_pos m cpos, d.signed_pos n dpos] at h
      -- With different signs one number is below the other.
      have both : m = n ∧ (compare c.exponent d.exponent).then (compare c.mantissa d.mantissa) =
          .eq := by
        cases m <;> cases n
        · exact ⟨rfl, Option.some.inj h⟩
        · cases h
        · cases h
        · exact ⟨rfl, Ordering.swap_eq_eq.mp (Option.some.inj h)⟩
      obtain ⟨sign, both⟩ := both
      rw [Ordering.then_eq_eq, Int.compare_eq_eq, Nat.compare_eq_eq] at both
      obtain ⟨m, e⟩ := c
      obtain ⟨k, f⟩ := d
      obtain ⟨rfl, rfl⟩ : e = f ∧ m = k := both
      exact ⟨rfl, .inl sign⟩
    · rw [c.signed_pos m cpos, d.signed_zero n dpos] at h
      cases m <;> cases h
  · have hzero := hc.eq_zero (show c.mantissa = 0 by omega)
    by_cases dpos : 0 < d.mantissa
    · rw [c.signed_zero m cpos, d.signed_pos n dpos] at h
      cases n <;> cases h
    · have hzero' := hd.eq_zero (show d.mantissa = 0 by omega)
      exact ⟨hzero.trans hzero'.symm, .inr hzero⟩

theorem magnitude_of_beq (hx : x.isFinite) (hy : y.isFinite) (h : x == y) :
    magnitude x = magnitude y ∧
      (isNegative x = isNegative y ∨ magnitude x = .finite ⟨0, leastExponent⟩) := by
  obtain ⟨c, hc⟩ := exists_magnitude_of_isFinite hx
  obtain ⟨d, hd⟩ := exists_magnitude_of_isFinite hy
  rw [beq_iff_compare, unpack_of_magnitude hc, unpack_of_magnitude hd] at h
  obtain ⟨rfl, sign⟩ := (Dyadic.toBits_of_magnitude hc).2.eq_of_compare
    (Dyadic.toBits_of_magnitude hd).2 h
  rw [hc, hd]
  exact ⟨rfl, sign.imp_right (congrArg Magnitude.finite)⟩

/-- **Finite doubles that are equal as numbers are the same if they have one sign.** -/
theorem eq_of_beq (hx : x.isFinite) (hy : y.isFinite) (h : x == y)
    (sign : isNegative x = isNegative y) : x = y := by
  obtain ⟨d, hd⟩ := exists_magnitude_of_isFinite hx
  have hd' := (magnitude_of_beq hx hy h).1.symm.trans hd
  rw [eq_ofDyadic hd, eq_ofDyadic hd', sign]

/-- **Finite doubles that are equal as numbers have one sign unless they are zero.** -/
theorem isNegative_eq_of_beq (hx : x.isFinite) (hy : y.isFinite) (h : x == y) :
    isNegative x = isNegative y ∨ (x == 0.0 ∧ y == 0.0) := by
  obtain ⟨same, sign | zero⟩ := magnitude_of_beq hx hy h
  · exact .inl sign
  · have equal {z : Float} (hz : magnitude z = .finite ⟨0, leastExponent⟩) : z == 0.0 := by
      rw [beq_iff_compare, unpack_of_magnitude hz]
      cases isNegative z <;> rfl
    exact .inr ⟨equal zero, equal (same.symm.trans zero)⟩

end Decimal

/-! ### Equal trees -/

/-- Amounts are equal as numbers, each with the one in its place. -/
abbrev AmountsAgree (xs ys : List Float) : Prop :=
  List.Forall₂ (fun x y => x == y) xs ys

mutual

/-- Equal conditions have equal amounts in the same places. -/
theorem Condition.agrees_amounts : ∀ (c d : Condition), c.agrees d →
    AmountsAgree c.amounts d.amounts
  | .constant _, .constant _, _ => .nil
  | .sensor _, .sensor _, _ => .nil
  | .energyAtLeast _, .energyAtLeast _, h => .cons h .nil
  | .and cs, .and ds, h => Condition.agreeAll_amounts cs ds h
  | .or cs, .or ds, h => Condition.agreeAll_amounts cs ds h
  | .not c, .not d, h => c.agrees_amounts d h

theorem Condition.agreeAll_amounts : ∀ (cs ds : List Condition), Condition.agreeAll cs ds →
    AmountsAgree (Condition.amountsOf cs) (Condition.amountsOf ds)
  | [], [], _ => .nil
  | c :: cs, d :: ds, h => by
      obtain ⟨first, rest⟩ := Bool.and_eq_true_iff.mp h
      exact List.rel_append (c.agrees_amounts d first) (Condition.agreeAll_amounts cs ds rest)

end

mutual

/-- **Equal programs have equal amounts in the same places.** -/
theorem Program.agrees_amounts : ∀ (p q : Program), p.agrees q → AmountsAgree p.amounts q.amounts
  | .act _, .act _, _ => .nil
  | .seq ps, .seq qs, h => Program.agreeAll_amounts ps qs h
  | .branch c p q, .branch d r s, h => by
      simp only [Program.agrees, Bool.and_eq_true] at h
      obtain ⟨⟨test, first⟩, second⟩ := h
      exact List.rel_append (c.agrees_amounts d test)
        (List.rel_append (p.agrees_amounts r first) (q.agrees_amounts s second))
  | .loop c p, .loop d q, h => by
      obtain ⟨test, body⟩ := Bool.and_eq_true_iff.mp h
      exact List.rel_append (c.agrees_amounts d test) (p.agrees_amounts q body)

theorem Program.agreeAll_amounts : ∀ (ps qs : List Program), Program.agreeAll ps qs →
    AmountsAgree (Program.amountsOf ps) (Program.amountsOf qs)
  | [], [], _ => .nil
  | p :: ps, q :: qs, h => by
      obtain ⟨first, rest⟩ := Bool.and_eq_true_iff.mp h
      exact List.rel_append (p.agrees_amounts q first) (Program.agreeAll_amounts ps qs rest)

end

theorem AmountsAgree.append_inj {xs ys xs' ys' : List Float} (h : AmountsAgree xs ys)
    (same : xs ++ xs' = ys ++ ys') : xs = ys ∧ xs' = ys' :=
  List.append_inj same h.length_eq

mutual

/-- Equal conditions with the same amounts are the same. -/
theorem Condition.eq_of_agrees : ∀ (c d : Condition), c.agrees d → c.amounts = d.amounts → c = d
  | .constant _, .constant _, h, _ => congrArg Condition.constant (eq_of_beq h)
  | .sensor _, .sensor _, h, _ => congrArg Condition.sensor (eq_of_beq h)
  | .energyAtLeast _, .energyAtLeast _, _, same =>
      congrArg Condition.energyAtLeast (List.cons.inj same).1
  | .and cs, .and ds, h, same => congrArg Condition.and (Condition.eq_of_agreeAll cs ds h same)
  | .or cs, .or ds, h, same => congrArg Condition.or (Condition.eq_of_agreeAll cs ds h same)
  | .not c, .not d, h, same => congrArg Condition.not (c.eq_of_agrees d h same)

theorem Condition.eq_of_agreeAll : ∀ (cs ds : List Condition), Condition.agreeAll cs ds →
    Condition.amountsOf cs = Condition.amountsOf ds → cs = ds
  | [], [], _, _ => rfl
  | c :: cs, d :: ds, h, same => by
      obtain ⟨first, rest⟩ := Bool.and_eq_true_iff.mp h
      obtain ⟨head, tail⟩ := (c.agrees_amounts d first).append_inj same
      rw [c.eq_of_agrees d first head, Condition.eq_of_agreeAll cs ds rest tail]

end

mutual

/-- **Equal programs with the same amounts are the same.** -/
theorem Program.eq_of_agrees : ∀ (p q : Program), p.agrees q → p.amounts = q.amounts → p = q
  | .act _, .act _, h, _ => congrArg Program.act (eq_of_beq h)
  | .seq ps, .seq qs, h, same => congrArg Program.seq (Program.eq_of_agreeAll ps qs h same)
  | .branch c p q, .branch d r s, h, same => by
      simp only [Program.agrees, Bool.and_eq_true] at h
      obtain ⟨⟨test, first⟩, second⟩ := h
      obtain ⟨htest, parts⟩ := (c.agrees_amounts d test).append_inj same
      obtain ⟨hfirst, hsecond⟩ := (p.agrees_amounts r first).append_inj parts
      rw [c.eq_of_agrees d test htest, p.eq_of_agrees r first hfirst,
        q.eq_of_agrees s second hsecond]
  | .loop c p, .loop d q, h, same => by
      obtain ⟨test, body⟩ := Bool.and_eq_true_iff.mp h
      obtain ⟨htest, hbody⟩ := (c.agrees_amounts d test).append_inj same
      rw [c.eq_of_agrees d test htest, p.eq_of_agrees q body hbody]

theorem Program.eq_of_agreeAll : ∀ (ps qs : List Program), Program.agreeAll ps qs →
    Program.amountsOf ps = Program.amountsOf qs → ps = qs
  | [], [], _, _ => rfl
  | p :: ps, q :: qs, h, same => by
      obtain ⟨first, rest⟩ := Bool.and_eq_true_iff.mp h
      obtain ⟨head, tail⟩ := (p.agrees_amounts q first).append_inj same
      rw [p.eq_of_agrees q first head, Program.eq_of_agreeAll ps qs rest tail]

end

/-! ### Their texts -/

/-- Finite amounts that agree are the same if they have the same signs. -/
theorem AmountsAgree.eq {xs ys : List Float} (h : AmountsAgree xs ys)
    (finite : ∀ x ∈ xs, x.isFinite) (finite' : ∀ y ∈ ys, y.isFinite)
    (signs : xs.map Decimal.isNegative = ys.map Decimal.isNegative) : xs = ys := by
  induction h with
  | nil => rfl
  | cons head _ ih =>
      rw [List.forall_mem_cons] at finite finite'
      rw [List.map_cons, List.map_cons, List.cons.injEq] at signs
      rw [Decimal.eq_of_beq finite.1 finite'.1 head signs.1, ih finite.2 finite'.2 signs.2]

/-- Finite amounts that agree have the same signs if no zero among them has one. -/
theorem AmountsAgree.signs {xs ys : List Float} (h : AmountsAgree xs ys)
    (finite : ∀ x ∈ xs, x.isFinite) (finite' : ∀ y ∈ ys, y.isFinite)
    (unsigned : ∀ x ∈ xs ++ ys, x == 0.0 → Decimal.isNegative x = false) :
    xs.map Decimal.isNegative = ys.map Decimal.isNegative := by
  induction h with
  | nil => rfl
  | @cons x y xs ys head _ ih =>
      rw [List.forall_mem_cons] at finite finite'
      have rest := ih finite.2 finite'.2 fun z hz => unsigned z (by
        simp only [List.mem_append, List.mem_cons] at hz ⊢
        exact hz.imp .inr .inr)
      rw [List.map_cons, List.map_cons, rest]
      rcases Decimal.isNegative_eq_of_beq finite.1 finite'.1 head with sign | ⟨zero, zero'⟩
      · rw [sign]
      · rw [unsigned x (by simp) zero, unsigned y (by simp) zero']

/-- **The texts of equal trees differ by the signs of zeros only.** For two sources that are read as
equal trees, the compact texts are equal exactly if each two amounts in the same place have the same
sign, and exactly if the trees are the same. Then the fingerprints are equal; and so they are if no
zero is written with a minus. -/
theorem Program.text_eq_iff_of_agrees {source source' : String} {p q : Program}
    (hp : Program.read source = .ok p) (hq : Program.read source' = .ok q) (agree : p == q) :
    (p.text = q.text ↔ p = q) ∧
      (p.text = q.text ↔ p.amounts.map Decimal.isNegative = q.amounts.map Decimal.isNegative) ∧
      (p.text = q.text → p.fingerprint = q.fingerprint) ∧
      ((∀ x ∈ p.amounts ++ q.amounts, x == 0.0 → Decimal.isNegative x = false) →
        p.text = q.text ∧ p.fingerprint = q.fingerprint) := by
  obtain ⟨depth, finite⟩ := Program.bounds_of_read hp
  obtain ⟨depth', finite'⟩ := Program.bounds_of_read hq
  have amounts := p.agrees_amounts q agree
  have of_text (h : p.text = q.text) : p = q := by
    have read := Program.read_text_eq depth finite
    rw [h, Program.read_text_eq depth' finite', Except.ok.injEq] at read
    exact read.symm
  have of_signs (h : p.amounts.map Decimal.isNegative = q.amounts.map Decimal.isNegative) : p = q :=
    p.eq_of_agrees q agree (amounts.eq finite finite' h)
  refine ⟨⟨of_text, congrArg Program.text⟩, ⟨?_, ?_⟩, ?_, ?_⟩
  · intro h
    rw [of_text h]
  · intro h
    rw [of_signs h]
  · intro h
    rw [of_text h]
  · intro unsigned
    obtain rfl := of_signs (amounts.signs finite finite' unsigned)
    exact ⟨rfl, rfl⟩

/-- A text in another layout and with the amount spelled in another way. -/
theorem Program.text_eq_iff_of_agrees_spelling :
    ∃ p q : Program, Program.read "(while (energy-at-least 0.5) (move))" = .ok p ∧
      Program.read "(WHILE(energy-at-least  +5E-1)(Move))" = .ok q ∧ p == q ∧
        p.text = q.text ∧ p.fingerprint = q.fingerprint := by
  have text : (Program.loop (.energyAtLeast 0.5) (.act .move)).text =
      "(while (energy-at-least 0.5) (move))" := by decide +kernel
  have hp : Program.read "(while (energy-at-least 0.5) (move))" =
      .ok (.loop (.energyAtLeast 0.5) (.act .move)) := by
    rw [← text]
    exact Program.read_text_eq (by decide) (by decide +kernel)
  have hgap : Blanks "  ".toList := by decide
  have hword : Word "+5E-1".toList := by decide
  have htest : Condition.Derives "(energy-at-least  +5E-1)".toList (.energyAtLeast 0.5) :=
    .energyAtLeast hgap (by decide) hword (by decide +kernel) (by decide +kernel)
      ⟨[], [], "energy-at-least".toList, [], [], by decide⟩
  have hmove : Program.Derives "(Move)".toList (.act .move) :=
    .act ⟨[], [], "Move".toList, [], [], by decide⟩
  have hloop : Program.Derives "(WHILE(energy-at-least  +5E-1)(Move))".toList
      (.loop (.energyAtLeast 0.5) (.act .move)) :=
    .loop htest hmove ⟨[], [], "WHILE".toList, [], [], by decide⟩
  have hq : Program.read "(WHILE(energy-at-least  +5E-1)(Move))" =
      .ok (.loop (.energyAtLeast 0.5) (.act .move)) :=
    (Program.read_text_of_derives hloop).trans (if_pos (by decide))
  obtain ⟨-, -, -, unsigned⟩ := Program.text_eq_iff_of_agrees hp hq (by decide +kernel)
  exact ⟨_, _, hp, hq, by decide +kernel, unsigned (by decide +kernel)⟩

/-- **The two zeros are equal and have two texts.** So the fingerprint of a program depends on the
spelling of its source. -/
theorem Program.exists_agrees_text_ne :
    ∃ p q : Program, Program.read "(while (energy-at-least 0) (move))" = .ok p ∧
      Program.read "(while (energy-at-least -0) (move))" = .ok q ∧ p == q ∧
        p.text ≠ q.text ∧ p.fingerprint ≠ q.fingerprint := by
  have text : (Program.loop (.energyAtLeast 0.0) (.act .move)).text =
      "(while (energy-at-least 0) (move))" := by decide +kernel
  have text' : (Program.loop (.energyAtLeast (-0.0)) (.act .move)).text =
      "(while (energy-at-least -0) (move))" := by decide +kernel
  rw [← text, ← text']
  exact ⟨_, _, Program.read_text_eq (by decide) (by decide +kernel),
    Program.read_text_eq (by decide) (by decide +kernel), by decide +kernel, by decide +kernel,
    by decide +kernel⟩

end RobotControl
