import RobotControl.Proofs.Source.Productions

/-!
What the readers are handed.

Parentheses are checked once, on the whole text. After that the readers cut texts out of texts and
trust that these are balanced. Here the productions run in a monad that notes every text handed to a
reader, so that it can be said of all of them that they are.

* `traceCondition`, `traceProgram`: the readers, with the calls that they make.
* `traceCondition_tracing`, `traceProgram_tracing`: noting the calls changes no answer, and what
  holds of every argument holds of every call.
* `ComesTo.balanced`: on the way through a balanced text, the loop that finds arguments sees balanced
  texts only.
* `ComesTo.isSome_matchingClose`: every parenthesis that the loop comes to has its partner.
* `reportsExactly_of_reported`: what a reader may be trusted with once the parentheses are checked.
* `reports_parentheses_and_blanks`: which texts are unbalanced and which are empty, and that no part
  of a text is either.
-/

namespace RobotControl

open Source Text

namespace Source

/-! ### Calls -/

/-- A text that a reader is handed, with the levels that are left for it. -/
structure Call where
  expected : Production
  levels : Nat
  text : List Char

/-- The reader that is called answers with the fault. -/
def Call.Fails (call : Call) (e : SyntaxError) : Prop :=
  match call.expected with
  | .condition => readCondition call.levels call.text = .error e
  | .program => readProgram call.levels call.text = .error e

/-- An answer, and the calls made on the way to it. -/
structure Traced (α : Type) where
  answer : Except SyntaxError α
  calls : List Call

namespace Traced

variable {α β : Type}

/-- Goes on with what was answered, unless it was a fault. -/
def andThen (x : Traced α) (f : α → Traced β) : Traced β :=
  match x.answer with
  | .ok a => ⟨(f a).answer, x.calls ++ (f a).calls⟩
  | .error e => ⟨.error e, x.calls⟩

instance : Monad Traced where
  pure a := ⟨.ok a, []⟩
  bind := andThen

instance : MonadLift (Except SyntaxError) Traced where
  monadLift x := ⟨x, []⟩

/-- Notes the call that comes to this. -/
def noting (call : Call) (x : Traced α) : Traced α :=
  ⟨x.answer, call :: x.calls⟩

end Traced

/-- Reads a condition and notes the calls. -/
def traceCondition : (levels : Nat) → List Char → Traced Condition
  | 0, cs => ⟨.error (tooDeepFor .condition cs), []⟩
  | levels + 1, cs => do
    let form ← openForm .condition cs
    form.toCondition fun arg => (traceCondition levels arg).noting ⟨.condition, levels, arg⟩

/-- Reads a program and notes the calls. -/
def traceProgram : (levels : Nat) → List Char → Traced Program
  | 0, cs => ⟨.error (tooDeepFor .program cs), []⟩
  | levels + 1, cs => do
    let form ← openForm .program cs
    form.toProgram (fun arg => (traceCondition levels arg).noting ⟨.condition, levels, arg⟩)
      fun arg => (traceProgram levels arg).noting ⟨.program, levels, arg⟩

end Source

/-- Reads a whole text as a program and notes the calls that are made inside it. -/
def Program.trace (text : String) : Traced Program := do
  checkBalance text.toList
  traceProgram maxDepth text.toList

/-- Reads a whole text as a condition and notes the calls that are made inside it. -/
def Condition.trace (text : String) : Traced Condition := do
  checkBalance text.toList
  traceCondition maxDepth text.toList

namespace Source

/-- A trace has the answer and calls of which `Q` holds. -/
def tracing (Q : Call → Prop) : Correspondence Traced (Except SyntaxError) where
  rel t x := t.answer = x ∧ ∀ call ∈ t.calls, Q call
  pure _ := ⟨rfl, fun _ hcall => absurd hcall List.not_mem_nil⟩
  bind {_ _ t x f g} ht hf := by
    obtain ⟨rfl, hcalls⟩ := ht
    show (t.andThen f).answer = _ ∧ ∀ call ∈ (t.andThen f).calls, Q call
    unfold Traced.andThen
    cases hanswer : t.answer with
    | error e => exact ⟨rfl, hcalls⟩
    | ok a =>
        obtain ⟨hanswer', hcalls'⟩ := hf a
        exact ⟨hanswer', List.forall_mem_append.mpr ⟨hcalls, hcalls'⟩⟩
  lift _ := ⟨rfl, fun _ hcall => absurd hcall List.not_mem_nil⟩

section Tracing

variable {Q : Call → Prop} {levels : Nat} {cs : List Char}

theorem noting_tracing {α : Type} {call : Call} {t : Traced α} {x : Except SyntaxError α}
    (hcall : Q call) (h : (tracing Q).rel t x) : (tracing Q).rel (t.noting call) x :=
  ⟨h.1, List.forall_mem_cons.mpr ⟨hcall, h.2⟩⟩

/-- Where nothing is called, nothing is noted. -/
theorem lift_tracing {α : Type} (x : Except SyntaxError α) :
    (tracing Q).rel (⟨x, []⟩ : Traced α) x :=
  ⟨rfl, fun _ hcall => absurd hcall List.not_mem_nil⟩

/-- **Noting the calls changes no answer, and a call is made on an argument only.** -/
theorem traceCondition_tracing
    (h : ∀ call : Call, Enclosed call.text ∨ Word call.text → Q call) :
    (tracing Q).rel (traceCondition levels cs) (readCondition levels cs) := by
  induction levels generalizing cs with
  | zero => exact lift_tracing _
  | succ levels ih =>
      rw [readCondition_succ, traceCondition]
      cases hopen : openForm .condition cs with
      | error e => exact lift_tracing _
      | ok form =>
          have hform : (tracing Q).rel (form.toCondition fun arg =>
              (traceCondition levels arg).noting ⟨.condition, levels, arg⟩)
              (form.toCondition (readCondition levels)) := by
            apply (tracing Q).toCondition
            intro arg harg
            exact noting_tracing (h ⟨_, _, arg⟩ (argument_of_openForm hopen arg harg)) ih
          exact hform

/-- The same of programs. -/
theorem traceProgram_tracing
    (h : ∀ call : Call, Enclosed call.text ∨ Word call.text → Q call) :
    (tracing Q).rel (traceProgram levels cs) (readProgram levels cs) := by
  induction levels generalizing cs with
  | zero => exact lift_tracing _
  | succ levels ih =>
      rw [readProgram_succ, traceProgram]
      cases hopen : openForm .program cs with
      | error e => exact lift_tracing _
      | ok form =>
          have hform : (tracing Q).rel (form.toProgram
              (fun arg => (traceCondition levels arg).noting ⟨.condition, levels, arg⟩)
              fun arg => (traceProgram levels arg).noting ⟨.program, levels, arg⟩)
              (form.toProgram (readCondition levels) (readProgram levels)) := by
            apply (tracing Q).toProgram
            · intro arg harg
              exact noting_tracing (h ⟨_, _, arg⟩ (argument_of_openForm hopen arg harg))
                (traceCondition_tracing h)
            · intro arg harg
              exact noting_tracing (h ⟨_, _, arg⟩ (argument_of_openForm hopen arg harg)) ih
          exact hform

end Tracing

/-! ### Looking for arguments -/

/-- The loop that finds arguments, on its way through the first text, comes to where the second one
is left. -/
inductive ComesTo : List Char → List Char → Prop where
  | start (cs : List Char) : ComesTo cs cs
  | blank {c : Char} {cs rest : List Char} (hblank : isBlank c) (later : ComesTo cs rest) :
      ComesTo (c :: cs) rest
  | argument {c : Char} {cs rest : List Char} (first : isBlank c = false)
      (later : ComesTo ((c :: cs).drop (argumentLength (c :: cs))) rest) : ComesTo (c :: cs) rest

/-- The text behind the tag of a form. -/
def argumentText (cs : List Char) : List Char :=
  (skipBlanks ((trim cs).drop 1).dropLast).dropWhile inTag

theorem arguments_eq_of_split? {cs : List Char} {form : Form} (h : Form.split? cs = some form) :
    form.arguments = splitArguments (argumentText cs) := by
  simp only [Form.split?] at h
  split at h
  · split at h
    · cases h
    · obtain rfl := Option.some.inj h
      rfl
  · cases h

theorem balanced_dropWhile {p : Char → Bool} (hp : ∀ c, p c → c ≠ '(' ∧ c ≠ ')') (cs : List Char) :
    balanced (cs.dropWhile p) = balanced cs := by
  have hplain : Plain (cs.takeWhile p) := fun c hc => hp c (List.mem_takeWhile_imp hc)
  rw [← balanced_plain_append hplain, List.takeWhile_append_dropWhile]

theorem balanced_argumentText {cs : List Char} {form : Form} (h : Form.split? cs = some form) :
    balanced (argumentText cs) := by
  obtain ⟨before, body, behind, hb, he, hbody, rfl⟩ := Form.exists_of_split? h
  have hinner : (('(' :: (body ++ [')'])).drop 1).dropLast = body := List.dropLast_concat
  rw [argumentText, trim_parenthesized hb he, hinner,
    balanced_dropWhile fun c hc => (inTag_iff.mp hc).2, skipBlanks,
    balanced_dropWhile fun c => ne_paren_of_isBlank]
  exact hbody

/-- What is left behind an argument is balanced again. -/
theorem balanced_drop_argument {c : Char} {cs : List Char} (h : balanced (c :: cs))
    (first : isBlank c = false) :
    balanced ((c :: cs).drop (argumentLength (c :: cs))) := by
  by_cases ho : c = '('
  · subst ho
    obtain ⟨inside, ys, rfl, -, hys, hclose⟩ := exists_partner h
    rw [argumentLength, if_pos List.head?_cons, hclose]
    simpa [Source.balanced] using hys
  · have hword : Plain ((c :: cs).takeWhile inWord) :=
      plain_of_inTag (inTag_of_mem_takeWhile h)
    have hhead : (c :: cs).head? ≠ some '(' := fun heq => ho (Option.some.inj heq)
    have hsplit : (c :: cs).takeWhile inWord ++ (c :: cs).dropWhile inWord = c :: cs :=
      List.takeWhile_append_dropWhile
    have hdrop : ((c :: cs).takeWhile inWord ++ (c :: cs).dropWhile inWord).drop
        ((c :: cs).takeWhile inWord).length = (c :: cs).dropWhile inWord := List.drop_left
    rw [hsplit] at hdrop
    rw [argumentLength, if_neg hhead, hdrop, ← balanced_plain_append hword, hsplit]
    exact h

theorem ComesTo.balanced {cs rest : List Char} (h : ComesTo cs rest) (hcs : balanced cs) :
    Source.balanced rest := by
  induction h with
  | start => exact hcs
  | @blank c cs rest hblank later ih =>
      apply ih
      rwa [Source.balanced, balancedFrom_other (ne_paren_of_isBlank hblank)] at hcs
  | argument first later ih => exact ih (balanced_drop_argument hcs first)

/-- **In a balanced text, every parenthesis that begins an argument is closed.** -/
theorem ComesTo.isSome_matchingClose {cs rest : List Char} (h : ComesTo cs rest)
    (hcs : Source.balanced cs) (hopen : rest.head? = some '(') : (matchingClose rest).isSome := by
  have hrest := h.balanced hcs
  cases rest with
  | nil => cases hopen
  | cons c rest =>
      obtain rfl : c = '(' := Option.some.inj hopen
      obtain ⟨_, _, _, _, _, hclose⟩ := exists_partner hrest
      rw [hclose]
      rfl

/-- If the text is a form, looking for its arguments never comes to a parenthesis without a
partner. -/
def ArgumentsClosed (cs : List Char) : Prop :=
  ∀ form, Form.split? cs = some form → form.arguments = splitArguments (argumentText cs) ∧
    ∀ rest, ComesTo (argumentText cs) rest → rest.head? = some '(' → (matchingClose rest).isSome

theorem argumentsClosed (cs : List Char) : ArgumentsClosed cs := by
  intro form h
  refine ⟨arguments_eq_of_split? h, fun rest hrest => ?_⟩
  exact hrest.isSome_matchingClose (balanced_argumentText h)

/-! ### Imbalance and emptiness -/

/-- The call needs no check: its text is balanced and not blank, it reports neither fault, and the
arguments of its form are all closed. -/
structure Call.Sound (call : Call) : Prop where
  balanced : balanced call.text
  not_blanks : ¬ Blanks call.text
  not_unbalanced : ∀ text, ¬ call.Fails (.unbalanced text)
  not_empty : ∀ expected, ¬ call.Fails (.empty expected)
  closed : ArgumentsClosed call.text

theorem Reported.ne_unbalanced {e : SyntaxError} (h : Reported e) (text : String) :
    e ≠ .unbalanced text := by
  rintro rfl
  rcases h with h | h
  · exact h
  · cases h

theorem Reported.ne_empty {e : SyntaxError} (h : Reported e) (expected : Production) :
    e ≠ .empty expected := by
  rintro rfl
  rcases h with h | h
  · exact h
  · cases h

theorem Call.reported {call : Call} (h : ¬ Blanks call.text) :
    ∀ e, call.Fails e → Reported e := by
  obtain ⟨expected, levels, text⟩ := call
  cases expected with
  | program => exact readProgram_reported h
  | condition => exact readCondition_reported h

/-- **A call on an argument is sound.** -/
theorem Call.sound_of_enclosed_or_word {call : Call} (h : Enclosed call.text ∨ Word call.text) :
    call.Sound := by
  have hreported := Call.reported (not_blanks_of_enclosed_or_word h)
  constructor
  · exact balanced_of_enclosed_or_word h
  · exact not_blanks_of_enclosed_or_word h
  · exact fun text hfails => (hreported _ hfails).ne_unbalanced text rfl
  · exact fun expected hfails => (hreported _ hfails).ne_empty expected rfl
  · exact argumentsClosed call.text

/-- The answer is an imbalance for exactly the texts that the counts call imbalanced, and emptiness
for exactly those that are blank. -/
structure ReportsExactly {α : Type} (cs : List Char) (answer : Except SyntaxError α) : Prop where
  unbalanced : (∃ text, answer = .error (.unbalanced text)) ↔ Imbalanced cs
  empty : (∃ expected, answer = .error (.empty expected)) ↔ Blanks cs

/-- **The check before a reader leaves it texts of two kinds**: those that are blank, and those of
which it reports neither imbalance nor emptiness. -/
theorem reportsExactly_of_reported {α : Type} {expected : Production} {cs : List Char}
    {answer : Except SyntaxError α} (blank : Blanks cs → answer = .error (.empty expected))
    (reported : ¬ Blanks cs → ∀ e, answer = .error e → Reported e) :
    ReportsExactly cs (checkBalance cs >>= fun _ => answer) := by
  rw [checkBalance]
  by_cases hbalanced : balanced cs
  · rw [if_pos hbalanced]
    show ReportsExactly cs answer
    have himbalanced : ¬ Imbalanced cs := by
      rw [imbalanced_iff, Bool.not_eq_false]
      exact hbalanced
    by_cases hcs : Blanks cs
    · rw [blank hcs]
      refine ⟨iff_of_false ?_ himbalanced, iff_of_true ⟨expected, rfl⟩ hcs⟩
      rintro ⟨text, h⟩
      cases h
    · constructor
      · refine iff_of_false ?_ himbalanced
        rintro ⟨text, h⟩
        exact (reported hcs _ h).ne_unbalanced text rfl
      · refine iff_of_false ?_ hcs
        rintro ⟨expected, h⟩
        exact (reported hcs _ h).ne_empty expected rfl
  · rw [if_neg hbalanced]
    have himbalanced : Imbalanced cs := imbalanced_iff.mpr (Bool.eq_false_iff.mpr hbalanced)
    have hcs : ¬ Blanks cs := fun h => hbalanced (balanced_plain (plain_of_blanks h))
    refine ⟨iff_of_true ⟨_, rfl⟩ himbalanced, iff_of_false ?_ hcs⟩
    rintro ⟨expected, h⟩
    cases h

end Source

theorem Condition.read_reportsExactly (text : String) :
    ReportsExactly text.toList (Condition.read text) :=
  reportsExactly_of_reported readCondition_of_blanks readCondition_reported

theorem Program.read_reportsExactly (text : String) :
    ReportsExactly text.toList (Program.read text) :=
  reportsExactly_of_reported readProgram_of_blanks readProgram_reported

theorem Condition.trace_tracing (text : String) :
    (tracing Call.Sound).rel (Condition.trace text) (Condition.read text) := by
  apply (tracing Call.Sound).bind (lift_tracing (checkBalance text.toList))
  intro _
  exact traceCondition_tracing fun _ => Call.sound_of_enclosed_or_word

theorem Program.trace_tracing (text : String) :
    (tracing Call.Sound).rel (Program.trace text) (Program.read text) := by
  apply (tracing Call.Sound).bind (lift_tracing (checkBalance text.toList))
  intro _
  exact traceProgram_tracing fun _ => Call.sound_of_enclosed_or_word

/-- **Imbalance and emptiness are reported exactly, and of the whole text only.** Whatever else is
wrong with a text, it is reported as unbalanced when the counts of its parentheses say so, and as
empty when there is nothing but white space. Every text that a reader is then handed is balanced and
not blank and is reported as neither, and no argument of a form, the outermost included, lacks the
parenthesis that closes it. -/
theorem reports_parentheses_and_blanks (text : String) :
    (ReportsExactly text.toList (Program.read text) ∧
      ReportsExactly text.toList (Condition.read text)) ∧
    ((Program.trace text).answer = Program.read text ∧
      ∀ call ∈ (Program.trace text).calls, call.Sound) ∧
    ((Condition.trace text).answer = Condition.read text ∧
      ∀ call ∈ (Condition.trace text).calls, call.Sound) ∧
    ArgumentsClosed text.toList := by
  refine ⟨⟨?_, ?_⟩, ?_, ?_, ?_⟩
  · exact Program.read_reportsExactly text
  · exact Condition.read_reportsExactly text
  · exact Program.trace_tracing text
  · exact Condition.trace_tracing text
  · exact argumentsClosed text.toList

-- A form comes before its arguments, and the word at the end is handed on like a form.
example : (Program.trace "(if (wall) (seq (move)) go)").calls.map
    (fun call => String.ofList call.text) = ["(wall)", "(seq (move))", "(move)", "go"] := by
  decide +kernel

end RobotControl
