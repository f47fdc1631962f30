import RobotControl.Proofs.Json.Numbers
import RobotControl.Proofs.Source.Grammar
import RobotControl.Proofs.Source.Printing
import RobotControl.Saved.Program

/-!
Saved trees.

A tree is read back from its document if the document nests no deeper than the reader allows and
each amount is read back. A form of the source takes up to two levels of the document: its object,
and the array of its parts.

* `Json.ReadsBack`: the text of a number is read as this number.
* `Condition.ofJson?_toJson`, `Program.ofJson?_toJson`: what is read back from a saved tree.
* `Condition.depth_toJson`, `Program.depth_toJson`: how deep a saved tree nests.
* `Program.leaves_of_restored`: whatever is read back has the same leaves.
-/

namespace RobotControl

open Json

/-- The text of the number is read as this number. -/
def Json.ReadsBack (x : Float) : Prop :=
  (number (Decimal.pointed x)).real? = some x

/-! ### What writing keeps -/

namespace Json

/-- Writing keeps the value as it is, and it can be taken in again. -/
structure Intact (j : Json) : Prop where
  restored : j.restored = j
  readable : j.isReadable

theorem intact_bool (value : Bool) : (bool value).Intact := by
  cases value <;> exact ⟨rfl, rfl⟩

theorem intact_string (text : String) : (string text).Intact :=
  ⟨rfl, rfl⟩

theorem ReadsBack.intact {x : Float} (h : ReadsBack x) : (number (Decimal.pointed x)).Intact := by
  refine ⟨if_neg ?_, ?_⟩
  · intro hnull
    rw [ReadsBack, hnull] at h
    cases h
  · have hmap : ((numberValue? (Decimal.pointed x)).map Number.toFloat).isSome :=
      Option.isSome_of_eq_some h
    rwa [Option.isSome_map] at hmap

theorem intact_array {items : List Json} (h : ∀ item ∈ items, item.Intact) :
    (array items).Intact := by
  induction items with
  | nil => exact ⟨rfl, rfl⟩
  | cons item items ih =>
      obtain ⟨hitem, hreadable⟩ := h item List.mem_cons_self
      obtain ⟨hitems, hreadables⟩ := ih fun later hlater => h later (List.mem_cons_of_mem _ hlater)
      refine ⟨?_, ?_⟩
      · show array (item.restored :: restoredItems items) = _
        rw [hitem, array.inj hitems]
      · show (item.isReadable && itemsReadable items) = true
        rw [hreadable]
        exact hreadables

theorem intact_object {members : List (String × Json)} (h : ∀ member ∈ members, member.2.Intact) :
    (object members).Intact := by
  induction members with
  | nil => exact ⟨rfl, rfl⟩
  | cons member members ih =>
      obtain ⟨hvalue, hreadable⟩ := h member List.mem_cons_self
      obtain ⟨hmembers, hreadables⟩ := ih fun later hlater =>
        h later (List.mem_cons_of_mem _ hlater)
      refine ⟨?_, ?_⟩
      · show object ((member.1, member.2.restored) :: restoredMembers members) = _
        rw [hvalue, object.inj hmembers]
      · show (member.2.isReadable && membersReadable members) = true
        rw [hreadable]
        exact hreadables

theorem intact_ofKind {kind : String} {fields : List (String × Json)}
    (h : ∀ field ∈ fields, field.2.Intact) : (ofKind kind fields).Intact :=
  intact_object (List.forall_mem_cons.mpr ⟨intact_string kind, h⟩)

theorem writable_ofKind {kind : String} {fields : List (String × Json)} (hkind : Plain kind)
    (hfields : WritableMembers fields) : (ofKind kind fields).Writable :=
  ⟨by decide, hkind, hfields⟩

end Json

theorem Action.plain_savedName (action : Action) : Plain action.savedName := by
  cases action <;> decide

theorem Sensor.plain_savedName (which : Sensor) : Plain which.savedName := by
  cases which <;> decide

/-! ### Conditions -/

namespace Condition

mutual

theorem writable_toJson : ∀ c : Condition, c.toJson.Writable
  | .constant _ => writable_ofKind (by decide) ⟨by decide, trivial, trivial⟩
  | .sensor which => writable_ofKind (by decide) ⟨by decide, which.plain_savedName, trivial⟩
  | .energyAtLeast amount =>
      writable_ofKind (by decide) ⟨by decide, isLiteral_or_null_pointed amount, trivial⟩
  | .and operands =>
      writable_ofKind (by decide) ⟨by decide, writableItems_toJsonAll operands, trivial⟩
  | .or operands =>
      writable_ofKind (by decide) ⟨by decide, writableItems_toJsonAll operands, trivial⟩
  | .not operand => writable_ofKind (by decide) ⟨by decide, operand.writable_toJson, trivial⟩

theorem writableItems_toJsonAll : ∀ cs : List Condition, WritableItems (toJsonAll cs)
  | [] => trivial
  | c :: cs => ⟨c.writable_toJson, writableItems_toJsonAll cs⟩

end

mutual

/-- A form takes one level of the document or two. -/
theorem depth_toJson : ∀ c : Condition, c.depth ≤ c.toJson.depth ∧ c.toJson.depth ≤ 2 * c.depth
  | .constant _ => ⟨Nat.le_refl 1, Nat.le_succ 1⟩
  | .sensor _ => ⟨Nat.le_refl 1, Nat.le_succ 1⟩
  | .energyAtLeast _ => ⟨Nat.le_refl 1, Nat.le_succ 1⟩
  | .and operands => by
      have hoperands := depth_toJsonAll operands
      simp only [toJson, ofKind, Json.depth, depthOfMembers, depth]
      omega
  | .or operands => by
      have hoperands := depth_toJsonAll operands
      simp only [toJson, ofKind, Json.depth, depthOfMembers, depth]
      omega
  | .not operand => by
      have hoperand := operand.depth_toJson
      simp only [toJson, ofKind, Json.depth, depthOfMembers, depth]
      omega

theorem depth_toJsonAll : ∀ cs : List Condition,
    depthOf cs ≤ depthOfItems (toJsonAll cs) ∧ depthOfItems (toJsonAll cs) ≤ 2 * depthOf cs
  | [] => by decide
  | c :: cs => by
      have hc := c.depth_toJson
      have hcs := depth_toJsonAll cs
      simp only [toJsonAll, depthOfItems, depthOf]
      omega

end

/-! #### Reading one node -/

section Nodes

variable (levels : Nat) (nested : Bool)

theorem ofTree?_constant (value : Bool) :
    ofTree? (levels + 1) nested (Condition.constant value).toJson = some (.constant value) :=
  rfl

theorem ofTree?_sensor (which : Sensor) :
    ofTree? (levels + 1) nested (Condition.sensor which).toJson = some (.sensor which) := by
  cases which <;> rfl

theorem ofTree?_energyAtLeast (amount : Json) :
    ofTree? (levels + 1) nested (ofKind "EnergyAtLeast" [("amount", amount)]) =
      (do return .energyAtLeast (← amount.real?)) :=
  rfl

theorem ofTree?_and (operands : List Json) :
    ofTree? (levels + 1) nested (ofKind "And" [("operands", .array operands)]) =
      (do return .and (← operands.mapM (ofTree? levels true))) :=
  rfl

theorem ofTree?_or (operands : List Json) :
    ofTree? (levels + 1) nested (ofKind "Or" [("operands", .array operands)]) =
      (do return .or (← operands.mapM (ofTree? levels true))) :=
  rfl

theorem ofTree?_not (operand : Json) :
    ofTree? (levels + 1) nested (ofKind "Not" [("operand", operand)]) =
      (do return .not (← ofTree? levels true operand)) :=
  rfl

end Nodes

/-! #### Reading a saved condition -/

mutual

theorem intact_toJson :
    ∀ c : Condition, (∀ x ∈ c.amounts, ReadsBack x) → c.toJson.Intact
  | .constant value, _ => intact_ofKind (List.forall_mem_singleton.mpr (intact_bool value))
  | .sensor _, _ => intact_ofKind (List.forall_mem_singleton.mpr (intact_string _))
  | .energyAtLeast amount, h =>
      intact_ofKind (List.forall_mem_singleton.mpr (h amount List.mem_cons_self).intact)
  | .and operands, h =>
      intact_ofKind (List.forall_mem_singleton.mpr (intact_array (intact_toJsonAll operands h)))
  | .or operands, h =>
      intact_ofKind (List.forall_mem_singleton.mpr (intact_array (intact_toJsonAll operands h)))
  | .not operand, h => intact_ofKind (List.forall_mem_singleton.mpr (operand.intact_toJson h))

theorem intact_toJsonAll : ∀ cs : List Condition, (∀ x ∈ amountsOf cs, ReadsBack x) →
    ∀ item ∈ toJsonAll cs, item.Intact
  | [], _ => fun _ h => absurd h List.not_mem_nil
  | c :: cs, h =>
      List.forall_mem_cons.mpr ⟨c.intact_toJson fun x hx => h x (List.mem_append_left _ hx),
        intact_toJsonAll cs fun x hx => h x (List.mem_append_right _ hx)⟩

end

-- Each node spends one of the reader's levels, and its document is at least one level deeper than
-- those of its parts, so the levels last for the whole tree.

mutual

/-- **A saved condition is read back from its tree** with as many levels as the tree has. -/
theorem ofTree?_toJson : ∀ (c : Condition) {levels : Nat} (nested : Bool),
    c.toJson.depth ≤ levels → (∀ x ∈ c.amounts, ReadsBack x) →
      ofTree? levels nested c.toJson = some c
  | c, 0, _, hlevels, _ => absurd (c.depth_pos.trans_le (c.depth_toJson.1.trans hlevels)) (by simp)
  | .constant value, levels + 1, nested, _, _ => ofTree?_constant levels nested value
  | .sensor which, levels + 1, nested, _, _ => ofTree?_sensor levels nested which
  | .energyAtLeast amount, levels + 1, nested, _, h => by
      have hamount : (number (Decimal.pointed amount)).real? = some amount :=
        h amount List.mem_cons_self
      rw [toJson, ofTree?_energyAtLeast, hamount]
      rfl
  | .and operands, levels + 1, nested, hlevels, h => by
      simp only [toJson, ofKind, Json.depth, depthOfMembers] at hlevels
      rw [toJson, ofTree?_and, mapM_ofTree?_toJsonAll operands (by omega) h]
      rfl
  | .or operands, levels + 1, nested, hlevels, h => by
      simp only [toJson, ofKind, Json.depth, depthOfMembers] at hlevels
      rw [toJson, ofTree?_or, mapM_ofTree?_toJsonAll operands (by omega) h]
      rfl
  | .not operand, levels + 1, nested, hlevels, h => by
      simp only [toJson, ofKind, Json.depth, depthOfMembers] at hlevels
      rw [toJson, ofTree?_not, operand.ofTree?_toJson true (by omega) h]
      rfl

theorem mapM_ofTree?_toJsonAll : ∀ (cs : List Condition) {levels : Nat},
    depthOfItems (toJsonAll cs) ≤ levels → (∀ x ∈ amountsOf cs, ReadsBack x) →
      (toJsonAll cs).mapM (ofTree? levels true) = some cs
  | [], _, _, _ => rfl
  | c :: cs, levels, hlevels, h => by
      simp only [toJsonAll, depthOfItems] at hlevels
      have hc : ofTree? levels true c.toJson = some c :=
        c.ofTree?_toJson true (by omega) fun x hx => h x (List.mem_append_left _ hx)
      have hcs : (toJsonAll cs).mapM (ofTree? levels true) = some cs :=
        mapM_ofTree?_toJsonAll cs (by omega) fun x hx => h x (List.mem_append_right _ hx)
      rw [toJsonAll, List.mapM_cons, hc, hcs]
      rfl

end

/-- **A saved condition is read back if it nests within the levels that are left.** -/
theorem ofJson?_toJson {c : Condition} (h : ∀ x ∈ c.amounts, ReadsBack x) (levels : Nat) :
    ofJson? levels c.toJson = if c.toJson.depth ≤ levels then some c else none := by
  rw [ofJson?, storable, (c.intact_toJson h).readable, Bool.and_true]
  by_cases hdepth : c.toJson.depth ≤ levels
  · rw [if_pos hdepth, if_pos (decide_eq_true hdepth)]
    exact c.ofTree?_toJson false (Nat.le_succ_of_le hdepth) h
  · rw [if_neg hdepth, decide_eq_false hdepth]
    rfl

end Condition

/-! ### Programs -/

namespace Program

mutual

theorem writable_toJson : ∀ p : Program, p.toJson.Writable
  | .act action => writable_ofKind (by decide) ⟨by decide, action.plain_savedName, trivial⟩
  | .seq body => writable_ofKind (by decide) ⟨by decide, writableItems_toJsonAll body, trivial⟩
  | .branch test thenPart elsePart =>
      writable_ofKind (by decide) ⟨by decide, test.writable_toJson, by decide,
        thenPart.writable_toJson, by decide, elsePart.writable_toJson, trivial⟩
  | .loop test body =>
      writable_ofKind (by decide) ⟨by decide, test.writable_toJson, by decide,
        body.writable_toJson, trivial⟩

theorem writableItems_toJsonAll : ∀ ps : List Program, WritableItems (toJsonAll ps)
  | [] => trivial
  | p :: ps => ⟨p.writable_toJson, writableItems_toJsonAll ps⟩

end

mutual

/-- A form takes one level of the document or two. -/
theorem depth_toJson : ∀ p : Program, p.depth ≤ p.toJson.depth ∧ p.toJson.depth ≤ 2 * p.depth
  | .act _ => ⟨Nat.le_refl 1, Nat.le_succ 1⟩
  | .seq body => by
      have hbody := depth_toJsonAll body
      simp only [toJson, ofKind, Json.depth, depthOfMembers, depth]
      omega
  | .branch test thenPart elsePart => by
      have htest := test.depth_toJson
      have hthen := thenPart.depth_toJson
      have helse := elsePart.depth_toJson
      simp only [toJson, ofKind, Json.depth, depthOfMembers, depth]
      omega
  | .loop test body => by
      have htest := test.depth_toJson
      have hbody := body.depth_toJson
      simp only [toJson, ofKind, Json.depth, depthOfMembers, depth]
      omega

theorem depth_toJsonAll : ∀ ps : List Program,
    depthOf ps ≤ depthOfItems (toJsonAll ps) ∧ depthOfItems (toJsonAll ps) ≤ 2 * depthOf ps
  | [] => by decide
  | p :: ps => by
      have hp := p.depth_toJson
      have hps := depth_toJsonAll ps
      simp only [toJsonAll, depthOfItems, depthOf]
      omega

end

/-! #### Reading one node -/

section Nodes

variable (levels : Nat) (nested : Bool)

theorem ofTree?_act (action : Action) :
    ofTree? (levels + 1) nested (Program.act action).toJson = some (.act action) := by
  cases action <;> rfl

theorem ofTree?_seq (body : List Json) :
    ofTree? (levels + 1) nested (ofKind "Sequence" [("body", .array body)]) =
      (do return .seq (← body.mapM (ofTree? levels true))) :=
  rfl

theorem ofTree?_branch (test thenPart elsePart : Json) :
    ofTree? (levels + 1) nested
        (ofKind "Conditional" [("test", test), ("then_c", thenPart), ("else_c", elsePart)]) =
      (do
        let test ← Condition.ofTree? levels true test
        let thenPart ← ofTree? levels true thenPart
        return .branch test thenPart (← ofTree? levels true elsePart)) :=
  rfl

theorem ofTree?_loop (test body : Json) :
    ofTree? (levels + 1) nested (ofKind "Loop" [("test", test), ("body", body)]) =
      (do return .loop (← Condition.ofTree? levels true test) (← ofTree? levels true body)) :=
  rfl

end Nodes

/-! #### Reading a saved program -/

mutual

theorem intact_toJson : ∀ p : Program, (∀ x ∈ p.amounts, ReadsBack x) → p.toJson.Intact
  | .act _, _ => intact_ofKind (List.forall_mem_singleton.mpr (intact_string _))
  | .seq body, h =>
      intact_ofKind (List.forall_mem_singleton.mpr (intact_array (intact_toJsonAll body h)))
  | .branch test thenPart elsePart, h => by
      obtain ⟨htest, hparts⟩ := List.forall_mem_append.mp h
      obtain ⟨hthen, helse⟩ := List.forall_mem_append.mp hparts
      exact intact_ofKind (List.forall_mem_cons.mpr ⟨test.intact_toJson htest,
        List.forall_mem_cons.mpr ⟨thenPart.intact_toJson hthen,
          List.forall_mem_singleton.mpr (elsePart.intact_toJson helse)⟩⟩)
  | .loop test body, h => by
      obtain ⟨htest, hbody⟩ := List.forall_mem_append.mp h
      exact intact_ofKind (List.forall_mem_cons.mpr ⟨test.intact_toJson htest,
        List.forall_mem_singleton.mpr (body.intact_toJson hbody)⟩)

theorem intact_toJsonAll : ∀ ps : List Program, (∀ x ∈ amountsOf ps, ReadsBack x) →
    ∀ item ∈ toJsonAll ps, item.Intact
  | [], _ => fun _ h => absurd h List.not_mem_nil
  | p :: ps, h => by
      obtain ⟨hp, hps⟩ := List.forall_mem_append.mp h
      exact List.forall_mem_cons.mpr ⟨p.intact_toJson hp, intact_toJsonAll ps hps⟩

end

mutual

/-- **A saved program is read back from its tree** with as many levels as the tree has. -/
theorem ofTree?_toJson : ∀ (p : Program) {levels : Nat} (nested : Bool),
    p.toJson.depth ≤ levels → (∀ x ∈ p.amounts, ReadsBack x) →
      ofTree? levels nested p.toJson = some p
  | p, 0, _, hlevels, _ => absurd (p.depth_pos.trans_le (p.depth_toJson.1.trans hlevels)) (by simp)
  | .act action, levels + 1, nested, _, _ => ofTree?_act levels nested action
  | .seq body, levels + 1, nested, hlevels, h => by
      simp only [toJson, ofKind, Json.depth, depthOfMembers] at hlevels
      rw [toJson, ofTree?_seq, mapM_ofTree?_toJsonAll body (by omega) h]
      rfl
  | .branch test thenPart elsePart, levels + 1, nested, hlevels, h => by
      obtain ⟨htest, hparts⟩ := List.forall_mem_append.mp h
      obtain ⟨hthen, helse⟩ := List.forall_mem_append.mp hparts
      simp only [toJson, ofKind, Json.depth, depthOfMembers] at hlevels
      rw [toJson, ofTree?_branch, test.ofTree?_toJson true (by omega) htest,
        thenPart.ofTree?_toJson true (by omega) hthen,
        elsePart.ofTree?_toJson true (by omega) helse]
      rfl
  | .loop test body, levels + 1, nested, hlevels, h => by
      obtain ⟨htest, hbody⟩ := List.forall_mem_append.mp h
      simp only [toJson, ofKind, Json.depth, depthOfMembers] at hlevels
      rw [toJson, ofTree?_loop, test.ofTree?_toJson true (by omega) htest,
        body.ofTree?_toJson true (by omega) hbody]
      rfl

theorem mapM_ofTree?_toJsonAll : ∀ (ps : List Program) {levels : Nat},
    depthOfItems (toJsonAll ps) ≤ levels → (∀ x ∈ amountsOf ps, ReadsBack x) →
      (toJsonAll ps).mapM (ofTree? levels true) = some ps
  | [], _, _, _ => rfl
  | p :: ps, levels, hlevels, h => by
      obtain ⟨hp, hps⟩ := List.forall_mem_append.mp h
      simp only [toJsonAll, depthOfItems] at hlevels
      rw [toJsonAll, List.mapM_cons, p.ofTree?_toJson true (by omega) hp,
        mapM_ofTree?_toJsonAll ps (by omega) hps]
      rfl

end

/-- **A saved program is read back if it nests within the levels that are left.** -/
theorem ofJson?_toJson {p : Program} (h : ∀ x ∈ p.amounts, ReadsBack x) (levels : Nat) :
    ofJson? levels p.toJson = if p.toJson.depth ≤ levels then some p else none := by
  rw [ofJson?, storable, (p.intact_toJson h).readable, Bool.and_true]
  by_cases hdepth : p.toJson.depth ≤ levels
  · rw [if_pos hdepth, if_pos (decide_eq_true hdepth)]
    exact p.ofTree?_toJson false (Nat.le_succ_of_le hdepth) h
  · rw [if_neg hdepth, decide_eq_false hdepth]
    rfl

/-! ### What any saved program has in common with what is read back -/

mutual

/-- **Whatever is read back from a written program has its leaves**, whether or not each amount is
read back. -/
theorem leaves_of_restored : ∀ (p : Program) {q : Program} {levels : Nat} {nested : Bool},
    ofTree? levels nested p.toJson.restored = some q → q.leaves = p.leaves
  | _, _, 0, _, h => by cases h
  | .act action, q, levels + 1, nested, h => by
      obtain rfl := Option.some.inj ((ofTree?_act levels nested action).symm.trans h)
      rfl
  | .seq body, q, levels + 1, nested, h => by
      obtain ⟨qs, hqs, hq⟩ := Option.bind_eq_some_iff.mp
        ((ofTree?_seq levels nested (restoredItems (toJsonAll body))).symm.trans h)
      obtain rfl := Option.some.inj hq
      exact leavesOf_of_restored body hqs
  | .branch test thenPart elsePart, q, levels + 1, nested, h => by
      obtain ⟨_, -, h⟩ := Option.bind_eq_some_iff.mp ((ofTree?_branch levels nested
        test.toJson.restored thenPart.toJson.restored elsePart.toJson.restored).symm.trans h)
      obtain ⟨first, hfirst, h⟩ := Option.bind_eq_some_iff.mp h
      obtain ⟨second, hsecond, h⟩ := Option.bind_eq_some_iff.mp h
      obtain rfl := Option.some.inj h
      rw [leaves, leaves, thenPart.leaves_of_restored hfirst, elsePart.leaves_of_restored hsecond]
  | .loop test body, q, levels + 1, nested, h => by
      obtain ⟨_, -, h⟩ := Option.bind_eq_some_iff.mp
        ((ofTree?_loop levels nested test.toJson.restored body.toJson.restored).symm.trans h)
      obtain ⟨inner, hinner, h⟩ := Option.bind_eq_some_iff.mp h
      obtain rfl := Option.some.inj h
      rw [leaves, leaves, body.leaves_of_restored hinner]

theorem leavesOf_of_restored : ∀ (ps : List Program) {qs : List Program} {levels : Nat},
    (restoredItems (toJsonAll ps)).mapM (ofTree? levels true) = some qs → leavesOf qs = leavesOf ps
  | [], _, _, h => by
      obtain rfl := Option.some.inj h
      rfl
  | p :: ps, _, levels, h => by
      rw [toJsonAll, restoredItems, List.mapM_cons] at h
      obtain ⟨first, hfirst, h⟩ := Option.bind_eq_some_iff.mp h
      obtain ⟨more, hmore, h⟩ := Option.bind_eq_some_iff.mp h
      obtain rfl := Option.some.inj h
      rw [leavesOf, leavesOf, p.leaves_of_restored hfirst, leavesOf_of_restored ps hmore]

end

end Program

end RobotControl
