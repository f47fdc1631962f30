import RobotControl.Json.Reader
import RobotControl.Proofs.Decimal.Positional

/-!
How values are spelled.

`Json.Spells` relates a value to its texts. White space stands behind opening brackets, commas and
colons and before closing brackets, as much as one likes; strings hold no character that needs an
escape. This covers the compact and the indented layout at once.

* `Json.Spells`: the text is a spelling of the value.
* `Json.splitValue_of_spells`: the reader splits a spelling off and finds the value.
* `Json.read?_of_spells`: a text that is one spelling is read as its value.
-/

namespace RobotControl.Json

open Text

/-- White space. -/
def Spaces (cs : List Char) : Prop :=
  ∀ c ∈ cs, isSpace c

/-- No number goes on here. -/
def Ends (rest : List Char) : Prop :=
  ∀ c ∈ rest.head?, c.isDigit = false ∧ c ≠ '.' ∧ c ≠ 'e' ∧ c ≠ 'E'

/-- No character of the text needs an escape. -/
def Plain (text : String) : Prop :=
  ∀ c ∈ text.toList, c ≠ '"' ∧ c ≠ '\\' ∧ ¬ c.toNat < 0x20

instance (text : String) : Decidable (Plain text) :=
  decidable_of_iff (text.toList.all fun c => c ≠ '"' ∧ c ≠ '\\' ∧ ¬ c.toNat < 0x20) (by
    simp only [List.all_eq_true, decide_eq_true_eq, Plain])

/-- The text is a number, wherever no number goes on behind it. -/
structure IsLiteral (literal : List Char) : Prop where
  starts : ∃ c cs, literal = c :: cs ∧ (c = '-' ∨ c.isDigit)
  splits : ∃ parts, ∀ rest, Ends rest → splitNumber (literal ++ rest) = some (parts, rest)

mutual

/-- The text is a spelling of the value. -/
def Spells : Json → List Char → Prop
  | null, cs => cs = ['n', 'u', 'l', 'l']
  | bool true, cs => cs = ['t', 'r', 'u', 'e']
  | bool false, cs => cs = ['f', 'a', 'l', 's', 'e']
  | number literal, cs => cs = literal ∧ IsLiteral literal
  | string text, cs => cs = '"' :: text.toList ++ ['"'] ∧ Plain text
  | array [], cs => ∃ gap, Spaces gap ∧ cs = '[' :: gap ++ [']']
  | array (item :: items), cs => ∃ gap first more, Spaces gap ∧ Spells item first ∧
      SpellsItems items more ∧ cs = '[' :: gap ++ first ++ more ++ [']']
  | object [], cs => ∃ gap, Spaces gap ∧ cs = '\x7b' :: gap ++ ['\x7d']
  | object ((name, value) :: members), cs => ∃ gap between first more, Spaces gap ∧ Plain name ∧
      Spaces between ∧ Spells value first ∧ SpellsMembers members more ∧
      cs = '\x7b' :: gap ++ '"' :: name.toList ++ '"' :: ':' :: between ++ first ++ more ++ ['\x7d']
  | unreadable, _ => False

/-- The text spells the items after the first, a comma before each. -/
def SpellsItems : List Json → List Char → Prop
  | [], cs => Spaces cs
  | item :: items, cs => ∃ gap first more, Spaces gap ∧ Spells item first ∧
      SpellsItems items more ∧ cs = ',' :: gap ++ first ++ more

/-- The text spells the members after the first, a comma before each. -/
def SpellsMembers : List (String × Json) → List Char → Prop
  | [], cs => Spaces cs
  | (name, value) :: members, cs => ∃ gap between first more, Spaces gap ∧ Plain name ∧
      Spaces between ∧ Spells value first ∧ SpellsMembers members more ∧
      cs = ',' :: gap ++ '"' :: name.toList ++ '"' :: ':' :: between ++ first ++ more

end

/-! ### Characters -/

section Characters

variable {c : Char} {gap rest : List Char}

theorem Spaces.nil : Spaces [] :=
  fun _ h => absurd h List.not_mem_nil

theorem skipSpace_append (hg : Spaces gap) (hc : isSpace c = false) :
    skipSpace (gap ++ c :: rest) = c :: rest := by
  have hstop : ∀ d ∈ (c :: rest).head?, isSpace d = false := by
    intro d hd
    cases hd
    exact hc
  exact dropWhile_append_stop hg hstop

theorem skipSpace_cons (hc : isSpace c = false) : skipSpace (c :: rest) = c :: rest :=
  skipSpace_append Spaces.nil hc

theorem ne_of_isDigit {d : Char} (hc : c.isDigit) (hd : d.isDigit = false) : c ≠ d := by
  rintro rfl
  rw [hc] at hd
  cases hd

theorem isSpace_of_isDigit (hc : c.isDigit) : isSpace c = false := by
  simp only [isSpace, Bool.or_eq_false_iff, beq_eq_false_iff_ne]
  exact ⟨⟨⟨ne_of_isDigit hc rfl, ne_of_isDigit hc rfl⟩, ne_of_isDigit hc rfl⟩, ne_of_isDigit hc rfl⟩

theorem ends_nil : Ends [] :=
  fun c h => absurd h (Option.not_mem_none c)

theorem ends_cons (h : c.isDigit = false ∧ c ≠ '.' ∧ c ≠ 'e' ∧ c ≠ 'E') : Ends (c :: rest) := by
  intro d hd
  cases hd
  exact h

theorem ends_of_isSpace (hc : isSpace c) : Ends (c :: rest) := by
  refine ends_cons ?_
  simp only [isSpace, Bool.or_eq_true, beq_iff_eq] at hc
  rcases hc with ((rfl | rfl) | rfl) | rfl <;> decide

/-- Behind a number stands white space, or what follows after it. -/
theorem Spaces.ends_append (hg : Spaces gap) (hr : Ends rest) : Ends (gap ++ rest) := by
  cases gap with
  | nil => exact hr
  | cons d gap => exact ends_of_isSpace (hg d List.mem_cons_self)

end Characters

/-! ### Strings -/

theorem splitString_of_plain {cs rest : List Char} {fuel : Nat}
    (h : ∀ c ∈ cs, c ≠ '"' ∧ c ≠ '\\' ∧ ¬ c.toNat < 0x20) (hf : cs.length < fuel) :
    splitString fuel (cs ++ '"' :: rest) = some (some cs, rest) := by
  induction cs generalizing fuel with
  | nil =>
      obtain ⟨fuel, rfl⟩ : ∃ k, fuel = k + 1 := ⟨fuel - 1, by omega⟩
      rfl
  | cons c cs ih =>
      obtain ⟨fuel, rfl⟩ : ∃ k, fuel = k + 1 := ⟨fuel - 1, by omega⟩
      obtain ⟨hquote, hback, hcontrol⟩ := h c List.mem_cons_self
      have hlater : splitString fuel (cs ++ '"' :: rest) = some (some cs, rest) :=
        ih (fun d hd => h d (List.mem_cons_of_mem _ hd)) (by simpa using hf)
      rw [List.cons_append, splitString, if_neg (by simpa using hquote),
        if_neg (by simpa using hback), if_neg hcontrol, hlater]
      rfl

/-- A quoted text is read as this text. -/
theorem splitString_quoted {text : String} (h : Plain text) (rest : List Char) :
    splitString ((text.toList ++ '"' :: rest).length + 1) (text.toList ++ '"' :: rest) =
      some (some text.toList, rest) := by
  refine splitString_of_plain h ?_
  rw [List.length_append]
  omega

/-! ### Values -/

/-- A spelling begins with a character that is no white space and closes nothing. -/
theorem Spells.starts {j : Json} {cs : List Char} (h : Spells j cs) :
    ∃ c rest, cs = c :: rest ∧ isSpace c = false ∧ c ≠ ']' ∧ c ≠ '\x7d' := by
  cases j with
  | null => exact ⟨_, _, h, by decide⟩
  | bool value => cases value <;> exact ⟨_, _, h, by decide⟩
  | number literal =>
      obtain ⟨rfl, ⟨c, rest, rfl, hc⟩, -⟩ := h
      refine ⟨c, rest, rfl, ?_⟩
      rcases hc with rfl | hc
      · decide
      · exact ⟨isSpace_of_isDigit hc, ne_of_isDigit hc rfl, ne_of_isDigit hc rfl⟩
  | string text => exact ⟨_, _, h.1, by decide⟩
  | array items =>
      cases items with
      | nil =>
          obtain ⟨gap, -, rfl⟩ := h
          exact ⟨_, _, rfl, by decide⟩
      | cons item items =>
          obtain ⟨gap, first, more, -, -, -, rfl⟩ := h
          exact ⟨_, _, rfl, by decide⟩
  | object members =>
      cases members with
      | nil =>
          obtain ⟨gap, -, rfl⟩ := h
          exact ⟨_, _, rfl, by decide⟩
      | cons member members =>
          obtain ⟨gap, between, first, more, -, -, -, -, -, rfl⟩ := h
          exact ⟨_, _, rfl, by decide⟩
  | unreadable => exact h.elim

/-- Numbers begin with no character that any other value begins with. -/
theorem splitValue_literal {literal before rest : List Char} {fuel : Nat} (h : IsLiteral literal)
    (hb : Spaces before) (hr : Ends rest) :
    splitValue (fuel + 1) (before ++ (literal ++ rest)) = some (number literal, rest) := by
  obtain ⟨⟨c, cs, rfl, hc⟩, parts, hsplit⟩ := h
  have hsplit := hsplit rest hr
  have hspace : isSpace c = false := by
    rcases hc with rfl | hc
    · decide
    · exact isSpace_of_isDigit hc
  have hne {d : Char} (hd : d.isDigit = false) (hminus : '-' ≠ d) : c ≠ d := by
    rcases hc with rfl | hc
    · exact hminus
    · exact ne_of_isDigit hc hd
  have htake : ((c :: cs) ++ rest).take (((c :: cs) ++ rest).length - rest.length) = c :: cs := by
    rw [List.length_append, Nat.add_sub_cancel, List.take_left]
  rw [splitValue, List.cons_append, skipSpace_append hb hspace]
  split
  case h_7 =>
    rw [List.cons_append] at hsplit htake
    rw [hsplit]
    dsimp only [Option.bind_eq_bind, Option.bind_some]
    rw [htake]
    rfl
  all_goals
    rename_i heq
    exact absurd (List.cons.inj heq).1 (hne rfl (by decide))

/-! ### What brackets open -/

section Brackets

variable {cs rest more : List Char} {c : Char} {fuel : Nat}

theorem splitValue_quote {text : List Char} (h : skipSpace cs = '"' :: rest)
    (hs : splitString (rest.length + 1) rest = some (some text, more)) :
    splitValue (fuel + 1) cs = some (string (String.ofList text), more) := by
  rw [splitValue, h]
  show (splitString (rest.length + 1) rest >>= _) = _
  rw [hs]
  rfl

-- Below, the first character is a literal that only reduction tells from the other ones.

theorem splitValue_emptyArray (h : skipSpace cs = '[' :: rest) (hs : skipSpace rest = ']' :: more) :
    splitValue (fuel + 1) cs = some (array [], more) := by
  rw [splitValue, h]
  conv_lhs => whnf
  rw [hs]
  rfl

theorem splitValue_emptyObject (h : skipSpace cs = '\x7b' :: rest)
    (hs : skipSpace rest = '\x7d' :: more) :
    splitValue (fuel + 1) cs = some (object [], more) := by
  rw [splitValue, h]
  conv_lhs => whnf
  rw [hs]
  rfl

theorem splitValue_array {items : List Json} (h : skipSpace cs = '[' :: rest)
    (hs : skipSpace rest = c :: more) (hc : c ≠ ']')
    {last : List Char} (hi : splitItems fuel (c :: more) = some (items, last)) :
    splitValue (fuel + 1) cs = some (array items, last) := by
  rw [splitValue, h]
  conv_lhs => whnf
  rw [hs]
  split
  · rename_i heq
    exact absurd (List.cons.inj heq).1 hc
  · rw [hi]
    rfl

theorem splitValue_object {members : List (String × Json)} (h : skipSpace cs = '\x7b' :: rest)
    (hs : skipSpace rest = c :: more) (hc : c ≠ '\x7d')
    {last : List Char} (hm : splitMembers fuel (c :: more) = some (some members, last)) :
    splitValue (fuel + 1) cs = some (object members, last) := by
  rw [splitValue, h]
  conv_lhs => whnf
  rw [hs]
  split
  · rename_i heq
    exact absurd (List.cons.inj heq).1 hc
  · rw [hm]
    rfl

/-- Behind a member, another one follows or the object is closed. -/
theorem splitMembers_member {name : String} {value : Json} (hname : Plain name)
    (h : skipSpace cs = '"' :: (name.toList ++ '"' :: ':' :: rest))
    (hv : splitValue fuel rest = some (value, more)) :
    splitMembers (fuel + 1) cs = match skipSpace more with
      | ',' :: more => do
        let (members, last) ← splitMembers fuel more
        return (members.map ((name, value) :: ·), last)
      | '\x7d' :: last => some (some [(name, value)], last)
      | _ => none := by
  rw [splitMembers, h]
  show (splitString _ _ >>= _) = _
  rw [splitString_quoted hname]
  dsimp only [Option.bind_eq_bind, Option.bind_some]
  rw [skipSpace_cons rfl]
  show (splitValue fuel _ >>= _) = _
  rw [hv]
  simp only [Option.bind_eq_bind, Option.bind_some, Option.map_some, String.ofList_toList]
  rfl

end Brackets

-- By recursion on the value. Two units of fuel for each character are enough: one is spent where a
-- value begins and one where an item or a member does, and each of these takes a character.

mutual

/-- **A spelling is split off and its value is found.** -/
theorem splitValue_of_spells : ∀ (j : Json) {cs before rest : List Char} {fuel : Nat},
    Spells j cs → Spaces before → Ends rest → 2 * cs.length ≤ fuel →
      splitValue fuel (before ++ (cs ++ rest)) = some (j, rest)
  | j, cs, _, _, 0, h, _, _, hf => by
      obtain ⟨c, tail, rfl, -⟩ := h.starts
      cases hf
  | null, cs, before, rest, fuel + 1, h, hb, _, _ => by
      obtain rfl : cs = ['n', 'u', 'l', 'l'] := h
      rw [splitValue, List.cons_append, skipSpace_append hb (by decide)]
      rfl
  | bool true, cs, before, rest, fuel + 1, h, hb, _, _ => by
      obtain rfl : cs = ['t', 'r', 'u', 'e'] := h
      rw [splitValue, List.cons_append, skipSpace_append hb (by decide)]
      rfl
  | bool false, cs, before, rest, fuel + 1, h, hb, _, _ => by
      obtain rfl : cs = ['f', 'a', 'l', 's', 'e'] := h
      rw [splitValue, List.cons_append, skipSpace_append hb (by decide)]
      rfl
  | number literal, cs, before, rest, fuel + 1, h, hb, hr, _ => by
      obtain ⟨rfl, hliteral⟩ := h
      exact splitValue_literal hliteral hb hr
  | string text, cs, before, rest, fuel + 1, h, hb, _, _ => by
      obtain ⟨rfl, hplain⟩ := h
      have hskip : skipSpace (before ++ '"' :: (text.toList ++ '"' :: rest)) =
          '"' :: (text.toList ++ '"' :: rest) := skipSpace_append hb rfl
      simp only [List.cons_append, List.append_assoc, List.nil_append]
      rw [splitValue_quote hskip (splitString_quoted hplain rest), String.ofList_toList]
  | array [], cs, before, rest, fuel + 1, h, hb, _, _ => by
      obtain ⟨gap, hgap, rfl⟩ := h
      simp only [List.cons_append, List.append_assoc, List.nil_append]
      exact splitValue_emptyArray (skipSpace_append hb rfl) (skipSpace_append hgap rfl)
  | object [], cs, before, rest, fuel + 1, h, hb, _, _ => by
      obtain ⟨gap, hgap, rfl⟩ := h
      simp only [List.cons_append, List.append_assoc, List.nil_append]
      exact splitValue_emptyObject (skipSpace_append hb rfl) (skipSpace_append hgap rfl)
  | array (item :: items), cs, before, rest, fuel + 1, h, hb, _, hf => by
      obtain ⟨gap, first, more, hgap, hfirst, hmore, rfl⟩ := h
      simp only [List.length_cons, List.length_append, List.length_nil] at hf
      obtain ⟨c, tail, rfl, hspace, hclose, -⟩ := hfirst.starts
      simp only [List.length_cons] at hf
      have hitems : splitItems fuel ([] ++ (c :: tail ++ (more ++ ']' :: rest))) =
          some (item :: items, rest) :=
        splitItems_of_spells items (splitValue_of_spells item hfirst) hmore Spaces.nil
          (by simp only [List.length_cons]; omega)
      simp only [List.cons_append, List.append_assoc, List.nil_append] at hitems ⊢
      exact splitValue_array (skipSpace_append hb rfl) (skipSpace_append hgap hspace) hclose hitems
  | object ((name, value) :: members), cs, before, rest, fuel + 1, h, hb, _, hf => by
      obtain ⟨gap, between, first, more, hgap, hname, hbetween, hfirst, hmore, rfl⟩ := h
      simp only [List.length_cons, List.length_append, List.length_nil] at hf
      have hmembers : splitMembers fuel ([] ++ '"' :: (name.toList ++ '"' :: ':' :: (between ++
          (first ++ (more ++ '\x7d' :: rest))))) = some (some ((name, value) :: members), rest) :=
        splitMembers_of_spells members hname hbetween (splitValue_of_spells value hfirst) hmore
          Spaces.nil (by omega)
      simp only [List.cons_append, List.append_assoc, List.nil_append] at hmembers ⊢
      exact splitValue_object (skipSpace_append hb rfl) (skipSpace_append hgap rfl) (by decide)
        hmembers
  | unreadable, _, _, _, _ + 1, h, _, _, _ => h.elim

theorem splitItems_of_spells : ∀ (items : List Json) {item : Json}
    {first more before rest : List Char} {fuel : Nat},
    (∀ {before rest : List Char} {fuel : Nat}, Spaces before → Ends rest → 2 * first.length ≤ fuel →
      splitValue fuel (before ++ (first ++ rest)) = some (item, rest)) →
    SpellsItems items more → Spaces before → 2 * (first.length + more.length) < fuel →
      splitItems fuel (before ++ (first ++ (more ++ ']' :: rest))) = some (item :: items, rest)
  | _, _, _, _, _, _, 0, _, _, _, hf => absurd hf (Nat.not_lt_zero _)
  | [], item, first, more, before, rest, fuel + 1, hfirst, hmore, hb, hf => by
      have hends : Ends (more ++ ']' :: rest) := hmore.ends_append (ends_cons (by decide))
      rw [splitItems, hfirst hb hends (by omega)]
      dsimp only [Option.bind_eq_bind, Option.bind_some]
      rw [skipSpace_append hmore rfl]
      rfl
  | item' :: items, item, first, more, before, rest, fuel + 1, hfirst, hmore, hb, hf => by
      obtain ⟨gap, second, more, hgap, hsecond, hmore, rfl⟩ := hmore
      simp only [List.length_cons, List.length_append] at hf
      have hlater : splitItems fuel (gap ++ (second ++ (more ++ ']' :: rest))) =
          some (item' :: items, rest) :=
        splitItems_of_spells items (splitValue_of_spells item' hsecond) hmore hgap (by omega)
      have hends : Ends (',' :: (gap ++ (second ++ (more ++ ']' :: rest)))) :=
        ends_cons (by decide)
      simp only [List.cons_append, List.append_assoc] at hlater ⊢
      rw [splitItems, hfirst hb hends (by omega)]
      dsimp only [Option.bind_eq_bind, Option.bind_some]
      rw [skipSpace_cons rfl]
      show (splitItems fuel _ >>= _) = _
      rw [hlater]
      rfl

theorem splitMembers_of_spells : ∀ (members : List (String × Json)) {name : String} {value : Json}
    {between first more before rest : List Char} {fuel : Nat}, Plain name → Spaces between →
    (∀ {before rest : List Char} {fuel : Nat}, Spaces before → Ends rest → 2 * first.length ≤ fuel →
      splitValue fuel (before ++ (first ++ rest)) = some (value, rest)) →
    SpellsMembers members more → Spaces before → 2 * (first.length + more.length) < fuel →
      splitMembers fuel (before ++ '"' :: (name.toList ++ '"' :: ':' :: (between ++ (first ++
        (more ++ '\x7d' :: rest))))) = some (some ((name, value) :: members), rest)
  | _, _, _, _, _, _, _, _, 0, _, _, _, _, _, hf => absurd hf (Nat.not_lt_zero _)
  | [], name, value, between, first, more, before, rest, fuel + 1, hname, hbetween, hfirst, hmore,
      hb, hf => by
      have hends : Ends (more ++ '\x7d' :: rest) := hmore.ends_append (ends_cons (by decide))
      rw [splitMembers_member hname (skipSpace_append hb rfl) (hfirst hbetween hends (by omega)),
        skipSpace_append hmore rfl]
      rfl
  | (name', value') :: members, name, value, between, first, more, before, rest, fuel + 1, hname,
      hbetween, hfirst, hmore, hb, hf => by
      obtain ⟨gap, between', second, more, hgap, hname', hbetween', hsecond, hmore, rfl⟩ := hmore
      simp only [List.length_cons, List.length_append] at hf
      have hlater : splitMembers fuel (gap ++ '"' :: (name'.toList ++ '"' :: ':' :: (between' ++
          (second ++ (more ++ '\x7d' :: rest))))) =
            some (some ((name', value') :: members), rest) :=
        splitMembers_of_spells members hname' hbetween' (splitValue_of_spells value' hsecond) hmore
          hgap (by omega)
      have hends : Ends (',' :: (gap ++ '"' :: (name'.toList ++ '"' :: ':' :: (between' ++
          (second ++ (more ++ '\x7d' :: rest)))))) :=
        ends_cons (by decide)
      simp only [List.cons_append, List.append_assoc] at hlater ⊢
      rw [splitMembers_member hname (skipSpace_append hb rfl) (hfirst hbetween hends (by omega)),
        skipSpace_cons rfl]
      show (splitMembers fuel _ >>= _) = _
      rw [hlater]
      rfl

end

/-- **A text that is one spelling is read as its value.** -/
theorem read?_of_spells {j : Json} {cs : List Char} (h : Spells j cs) :
    read? (String.ofList cs) = some j := by
  have hsplit : splitValue (2 * cs.length + 2) ([] ++ (cs ++ [])) = some (j, []) :=
    splitValue_of_spells j h Spaces.nil ends_nil (by omega)
  rw [List.nil_append, List.append_nil] at hsplit
  rw [read?, String.toList_ofList]
  rw [hsplit]
  rfl

end RobotControl.Json
