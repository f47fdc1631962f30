import RobotControl.Proofs.Source.Nesting
import RobotControl.Proofs.Source.Reading

/-!
Productions in any monad.

What a form is read as does not depend on how its arguments are read: a production hands them over
from left to right and puts the trees together. Here the productions are written for any monad that
has the faults of reading, so that the readers can be compared with readers that do more, or that
have other levels left.

* `readCondition_succ`, `readProgram_succ`: the readers are these productions, one level down.
* `Correspondence`: a relation between two monads that outlasts putting computations together.
* `Correspondence.toCondition`, `Correspondence.toProgram`: where the readings of the arguments
  correspond, the readings of the form do.
* `agreement`: answers that are the same but for paired faults.
* `readCondition_reported`, `readProgram_reported`: which faults a reader can report.
* `Condition.read_of_balanced`, `Program.read_of_balanced`: only a balanced text is handed to a reader.
-/

namespace RobotControl

open Source Text

/-- The fault lies in one form: in its tag, in the number of its arguments or in its amount. -/
def SyntaxError.OfForm : SyntaxError → Prop
  | .unrecognized _ _ | .arity _ _ _ | .invalidNumber _ => True
  | .empty _ | .unbalanced _ | .tooDeep _ => False

namespace Source

section Productions

variable {m : Type → Type} [Monad m] [MonadLiftT (Except SyntaxError) m]

/-- Reads a form as a condition. Its operands are read by `below`. -/
def Form.toCondition (below : List Char → m Condition) (form : Form) : m Condition :=
  match form.tag with
  | "true" => liftM (form.alone (Condition.constant true))
  | "false" => liftM (form.alone (Condition.constant false))
  | "and" => do return .and (← form.arguments.mapM below)
  | "or" => do return .or (← form.arguments.mapM below)
  | "not" => match form.arguments with
    | [operand] => do return .not (← below operand)
    | _ => liftM (Except.error (α := Condition) (form.miscounted 1))
  | "energy-at-least" => match form.arguments with
    | [amount] => do return .energyAtLeast (← readAmount amount)
    | _ => liftM (Except.error (α := Condition) (form.miscounted 1))
  | word => match Sensor.ofKeyword? word with
    | some sensor => liftM (form.alone (Condition.sensor sensor))
    | none => liftM (Except.error (α := Condition) (form.unknown .condition))

/-- Reads a form as a program. Its tests are read by `test` and its parts by `below`. -/
def Form.toProgram (test : List Char → m Condition) (below : List Char → m Program) (form : Form) :
    m Program :=
  match form.tag with
  | "seq" => do return .seq (← form.arguments.mapM below)
  | "if" => match form.arguments with
    | [condition, thenPart, elsePart] => do
      return .branch (← test condition) (← below thenPart) (← below elsePart)
    | _ => liftM (Except.error (α := Program) (form.miscounted 3))
  | "while" => match form.arguments with
    | [condition, body] => do return .loop (← test condition) (← below body)
    | _ => liftM (Except.error (α := Program) (form.miscounted 2))
  | word => match Action.ofKeyword? word with
    | some action => liftM (form.alone (Program.act action))
    | none => liftM (Except.error (α := Program) (form.unknown .program))

end Productions

/-- **Reading a condition is opening a form and reading it** with one level less for its operands. -/
theorem readCondition_succ (levels : Nat) (cs : List Char) :
    readCondition (levels + 1) cs =
      openForm .condition cs >>= Form.toCondition (readCondition levels) := by
  rw [readCondition]
  rfl

/-- **Reading a program is opening a form and reading it** with one level less for its parts. -/
theorem readProgram_succ (levels : Nat) (cs : List Char) :
    readProgram (levels + 1) cs =
      openForm .program cs >>= Form.toProgram (readCondition levels) (readProgram levels) := by
  rw [readProgram]
  rfl

/-! ### Readings that correspond -/

theorem Form.ofForm_of_alone {α : Type} {form : Form} {value : α} {e : SyntaxError}
    (h : form.alone value = .error e) : e.OfForm := by
  unfold Form.alone at h
  split at h
  · cases h
  · cases h
    trivial

theorem ofForm_of_readAmount {cs : List Char} {e : SyntaxError} (h : readAmount cs = .error e) :
    e.OfForm := by
  unfold readAmount at h
  split at h
  · split at h
    · cases h
    · cases h
      trivial
  · cases h
    trivial

/-- A relation between what two monads compute that outlasts putting computations together. The
faults of forms are the same in both. -/
structure Correspondence (m n : Type → Type) [Monad m] [MonadLiftT (Except SyntaxError) m] [Monad n]
    [MonadLiftT (Except SyntaxError) n] where
  rel : {α : Type} → m α → n α → Prop
  pure : ∀ {α : Type} (a : α), rel (Pure.pure a : m α) (Pure.pure a)
  bind : ∀ {α β : Type} {x : m α} {y : n α} {f : α → m β} {g : α → n β}, rel x y →
    (∀ a, rel (f a) (g a)) → rel (x >>= f) (y >>= g)
  lift : ∀ {α : Type} {x : Except SyntaxError α}, (∀ e, x = .error e → e.OfForm) →
    rel (liftM x : m α) (liftM x)

namespace Correspondence

variable {m n : Type → Type} [Monad m] [MonadLiftT (Except SyntaxError) m] [Monad n]
  [MonadLiftT (Except SyntaxError) n]

/-- Results that correspond still do after a function is applied to them. -/
theorem map (R : Correspondence m n) {α β : Type} {x : m α} {y : n α} (h : R.rel x y)
    (f : α → β) : R.rel (x >>= fun a => Pure.pure (f a)) (y >>= fun a => Pure.pure (f a)) :=
  R.bind h fun a => R.pure (f a)

theorem fault (R : Correspondence m n) {α : Type} {e : SyntaxError} (h : e.OfForm) :
    R.rel (liftM (Except.error e : Except SyntaxError α) : m α)
      (liftM (Except.error e : Except SyntaxError α)) := by
  apply R.lift
  rintro e' ⟨⟩
  exact h

theorem alone (R : Correspondence m n) {α : Type} (form : Form) (value : α) :
    R.rel (liftM (form.alone value) : m α) (liftM (form.alone value)) :=
  R.lift fun _ => Form.ofForm_of_alone

theorem mapM (R : Correspondence m n) {α : Type} {f : List Char → m α} {g : List Char → n α}
    {args : List (List Char)} (h : ∀ arg ∈ args, R.rel (f arg) (g arg)) :
    R.rel (args.mapM f) (args.mapM g) := by
  suffices loop : ∀ read : List α, R.rel (List.mapM.loop f args read) (List.mapM.loop g args read)
    from loop []
  induction args with
  | nil => exact fun read => R.pure read.reverse
  | cons arg args ih =>
      intro read
      apply R.bind (h arg List.mem_cons_self)
      intro a
      exact ih (fun arg' harg' => h arg' (List.mem_cons_of_mem arg harg')) (a :: read)

/-- **Where the readings of the operands correspond, the readings of the condition do.** -/
theorem toCondition (R : Correspondence m n) {f : List Char → m Condition}
    {g : List Char → n Condition} {form : Form} (h : ∀ arg ∈ form.arguments, R.rel (f arg) (g arg)) :
    R.rel (form.toCondition f) (form.toCondition g) := by
  unfold Form.toCondition
  split
  · exact R.alone form _
  · exact R.alone form _
  · exact R.map (R.mapM h) Condition.and
  · exact R.map (R.mapM h) Condition.or
  · split
    · rename_i operand hargs
      exact R.map (h operand (by simp [hargs])) Condition.not
    · exact R.fault trivial
  · split
    · exact R.map (R.lift fun _ => ofForm_of_readAmount) Condition.energyAtLeast
    · exact R.fault trivial
  · split
    · exact R.alone form _
    · exact R.fault trivial

/-- **Where the readings of the parts correspond, the readings of the program do.** -/
theorem toProgram (R : Correspondence m n) {f : List Char → m Condition} {g : List Char → n Condition}
    {f' : List Char → m Program} {g' : List Char → n Program} {form : Form}
    (htest : ∀ arg ∈ form.arguments, R.rel (f arg) (g arg))
    (hpart : ∀ arg ∈ form.arguments, R.rel (f' arg) (g' arg)) :
    R.rel (form.toProgram f f') (form.toProgram g g') := by
  unfold Form.toProgram
  split
  · exact R.map (R.mapM hpart) Program.seq
  · split
    · rename_i condition thenPart elsePart hargs
      apply R.bind (htest condition (by simp [hargs]))
      intro test
      apply R.bind (hpart thenPart (by simp [hargs]))
      intro first
      exact R.map (hpart elsePart (by simp [hargs])) (Program.branch test first)
    · exact R.fault trivial
  · split
    · rename_i condition body hargs
      apply R.bind (htest condition (by simp [hargs]))
      intro test
      exact R.map (hpart body (by simp [hargs])) (Program.loop test)
    · exact R.fault trivial
  · split
    · exact R.alone form _
    · exact R.fault trivial

end Correspondence

/-- Two answers are the same, with a fault in `Q` if with any, or they are faults paired by `P`. -/
inductive Agree {α : Type} (Q : SyntaxError → Prop) (P : SyntaxError → SyntaxError → Prop) :
    Except SyntaxError α → Except SyntaxError α → Prop where
  | same {x : Except SyntaxError α} (faults : ∀ e, x = .error e → Q e) : Agree Q P x x
  | paired {e e' : SyntaxError} (pair : P e e') : Agree Q P (.error e) (.error e')

/-- The first fault ends a reading, so readings whose arguments agree do agree. -/
def agreement (Q : SyntaxError → Prop) (P : SyntaxError → SyntaxError → Prop)
    (hQ : ∀ e, e.OfForm → Q e) : Correspondence (Except SyntaxError) (Except SyntaxError) where
  rel := Agree Q P
  pure a := .same fun e h => by cases h
  bind {_ _ x _ f g} hx hf := by
    cases hx with
    | same faults =>
        cases x with
        | error e =>
            refine .same fun e' h => faults e' ?_
            cases h
            rfl
        | ok a => exact hf a
    | paired pair => exact .paired pair
  lift faults := .same fun e h => hQ e (faults e h)

/-! ### What is opened -/

section Opened

variable {expected : Production} {cs : List Char} {form : Form}

/-- What cannot be opened is blank or not one form. -/
theorem fault_of_openForm {e : SyntaxError} (h : openForm expected cs = .error e) :
    (Blanks cs ∧ e = .empty expected) ∨
      (¬ Blanks cs ∧ e = .unrecognized expected (String.ofList (trim cs))) := by
  unfold openForm at h
  split at h
  · rename_i hempty
    exact .inl ⟨isEmpty_trim_iff.mp hempty, (Except.error.inj h).symm⟩
  · rename_i hempty
    split at h
    · cases h
    · exact .inr ⟨fun hblanks => hempty (isEmpty_trim_iff.mpr hblanks), (Except.error.inj h).symm⟩

/-- The arguments of an open form are those of a balanced text one level further in. -/
theorem exists_splits_of_openForm (h : openForm expected cs = .ok form) :
    ∃ inside, Splits inside form.arguments ∧
      ∀ n, NestsWithin n cs → ∃ k, n = k + 1 ∧ NestsWithin k inside := by
  obtain ⟨inside, framed, hword, hinside, -, -, hargs⟩ :=
    Form.split?_eq_some_iff.mp (openForm_eq_ok_iff.mp h)
  refine ⟨inside, splits_iff.mpr ⟨hinside, hargs.symm⟩, ?_⟩
  intro n hn
  exact hn.of_framed framed hword

theorem argument_of_openForm (h : openForm expected cs = .ok form) :
    ∀ arg ∈ form.arguments, Enclosed arg ∨ Word arg := by
  obtain ⟨inside, hsplits, -⟩ := exists_splits_of_openForm h
  exact hsplits.enclosed_or_word

/-- The arguments of a form nest one level less deep than the form. -/
theorem nestsWithin_of_openForm {n : Nat} (h : openForm expected cs = .ok form)
    (hn : NestsWithin n cs) : ∃ k, n = k + 1 ∧ ∀ arg ∈ form.arguments, NestsWithin k arg := by
  obtain ⟨inside, hsplits, hinside⟩ := exists_splits_of_openForm h
  obtain ⟨k, rfl, hk⟩ := hinside n hn
  exact ⟨k, rfl, hsplits.nestsWithin hk⟩

theorem tooDeepFor_of_not_blanks (h : ¬ Blanks cs) : tooDeepFor expected cs = .tooDeep maxDepth :=
  if_neg fun hempty => h (isEmpty_trim_iff.mp hempty)

theorem tooDeepFor_of_blanks (h : Blanks cs) : tooDeepFor expected cs = .empty expected :=
  if_pos (isEmpty_trim_iff.mpr h)

theorem openForm_of_blanks (h : Blanks cs) : openForm expected cs = .error (.empty expected) :=
  if_pos (isEmpty_trim_iff.mpr h)

end Opened

/-! ### Faults of the readers -/

theorem readCondition_of_blanks {levels : Nat} {cs : List Char} (h : Blanks cs) :
    readCondition levels cs = .error (.empty .condition) := by
  cases levels with
  | zero => rw [readCondition, tooDeepFor_of_blanks h]
  | succ levels =>
      rw [readCondition_succ, openForm_of_blanks h]
      rfl

theorem readProgram_of_blanks {levels : Nat} {cs : List Char} (h : Blanks cs) :
    readProgram levels cs = .error (.empty .program) := by
  cases levels with
  | zero => rw [readProgram, tooDeepFor_of_blanks h]
  | succ levels =>
      rw [readProgram_succ, openForm_of_blanks h]
      rfl

/-- A reader that is handed more than white space can fail for what is wrong with a form, or because
no level is left. -/
def Reported (e : SyntaxError) : Prop :=
  e.OfForm ∨ e = .tooDeep maxDepth

theorem ofForm_of_openForm {expected : Production} {cs : List Char} {e : SyntaxError}
    (hcs : ¬ Blanks cs) (h : openForm expected cs = .error e) : e.OfForm := by
  rcases fault_of_openForm h with ⟨hblanks, -⟩ | ⟨-, rfl⟩
  · exact absurd hblanks hcs
  · trivial

/-- Readings of one text agree if they agree on the form that is opened. -/
theorem agree_of_openForm {α : Type} {Q : SyntaxError → Prop} {P : SyntaxError → SyntaxError → Prop}
    {expected : Production} {cs : List Char} {f g : Form → Except SyntaxError α}
    (hcs : ¬ Blanks cs) (hQ : ∀ e, e.OfForm → Q e)
    (h : ∀ form, openForm expected cs = .ok form → Agree Q P (f form) (g form)) :
    Agree Q P (openForm expected cs >>= f) (openForm expected cs >>= g) := by
  cases hopen : openForm expected cs with
  | error e =>
      refine .same fun e' he' => ?_
      cases he'
      exact hQ e (ofForm_of_openForm hcs hopen)
  | ok form => exact h form hopen

theorem Agree.faults {α : Type} {Q : SyntaxError → Prop} {x y : Except SyntaxError α}
    (h : Agree Q (fun _ _ => False) x y) : ∀ e, x = .error e → Q e := by
  cases h with
  | same faults => exact faults
  | paired pair => exact pair.elim

theorem readCondition_reported {levels : Nat} {cs : List Char} (hcs : ¬ Blanks cs) :
    ∀ e, readCondition levels cs = .error e → Reported e := by
  induction levels generalizing cs with
  | zero =>
      intro e h
      rw [readCondition, tooDeepFor_of_not_blanks hcs] at h
      exact .inr (Except.error.inj h).symm
  | succ levels ih =>
      rw [readCondition_succ]
      apply Agree.faults
      apply agree_of_openForm hcs (fun _ => .inl)
      intro form hopen
      apply (agreement Reported (fun _ _ => False) fun _ => .inl).toCondition
      intro arg harg
      exact .same (ih (not_blanks_of_enclosed_or_word (argument_of_openForm hopen arg harg)))

theorem readProgram_reported {levels : Nat} {cs : List Char} (hcs : ¬ Blanks cs) :
    ∀ e, readProgram levels cs = .error e → Reported e := by
  induction levels generalizing cs with
  | zero =>
      intro e h
      rw [readProgram, tooDeepFor_of_not_blanks hcs] at h
      exact .inr (Except.error.inj h).symm
  | succ levels ih =>
      rw [readProgram_succ]
      apply Agree.faults
      apply agree_of_openForm hcs (fun _ => .inl)
      intro form hopen
      have hargs (arg) (harg : arg ∈ form.arguments) : ¬ Blanks arg :=
        not_blanks_of_enclosed_or_word (argument_of_openForm hopen arg harg)
      apply (agreement Reported (fun _ _ => False) fun _ => .inl).toProgram
      · intro arg harg
        exact .same (readCondition_reported (hargs arg harg))
      · intro arg harg
        exact .same (ih (hargs arg harg))

end Source

/-! ### Whole texts -/

section WholeTexts

variable {text : String}

theorem Program.read_of_balanced (h : balanced text.toList) :
    Program.read text = readProgram maxDepth text.toList := by
  rw [Program.read, checkBalance, if_pos h]
  rfl

theorem Condition.read_of_balanced (h : balanced text.toList) :
    Condition.read text = readCondition maxDepth text.toList := by
  rw [Condition.read, checkBalance, if_pos h]
  rfl

end WholeTexts

end RobotControl
