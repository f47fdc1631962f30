import RobotControl.Json.Printer
import RobotControl.Proofs.Json.Spelling

/-!
Written values are spellings.

Both layouts of a value spell the same value. It is the value itself, except that `null` also stands
for what has no text of its own: for a number that was written as `null`, and for what cannot be
read.

* `Json.restored`: the value that a written text gives back.
* `Json.read?_text`, `Json.read?_prettyText`: this value is read from either layout.
-/

namespace RobotControl.Json

mutual

/-- The value that a written text gives back. -/
def restored : Json → Json
  | number literal => if literal = ['n', 'u', 'l', 'l'] then null else number literal
  | array items => array (restoredItems items)
  | object members => object (restoredMembers members)
  | unreadable => null
  | j => j

def restoredItems : List Json → List Json
  | [] => []
  | item :: items => item.restored :: restoredItems items

def restoredMembers : List (String × Json) → List (String × Json)
  | [] => []
  | (name, value) :: members => (name, value.restored) :: restoredMembers members

end

mutual

/-- Numbers are written as numbers or as `null`, and no string or name needs an escape. -/
def Writable : Json → Prop
  | number literal => IsLiteral literal ∨ literal = ['n', 'u', 'l', 'l']
  | string text => Plain text
  | array items => WritableItems items
  | object members => WritableMembers members
  | _ => True

def WritableItems : List Json → Prop
  | [] => True
  | item :: items => item.Writable ∧ WritableItems items

def WritableMembers : List (String × Json) → Prop
  | [] => True
  | (name, value) :: members => Plain name ∧ value.Writable ∧ WritableMembers members

end

/-! ### Strings and numbers -/

theorem escapeChar_of_plain {c : Char} (h : c ≠ '"' ∧ c ≠ '\\' ∧ ¬ c.toNat < 0x20) :
    escapeChar c = [c] := by
  obtain ⟨hquote, hback, hcontrol⟩ := h
  have hne {d : Char} (hd : d.toNat < 0x20) : c ≠ d := by
    rintro rfl
    exact hcontrol hd
  rw [escapeChar, if_neg hquote, if_neg hback, if_neg (hne (by decide)), if_neg (hne (by decide)),
    if_neg (hne (by decide)), if_neg (hne (by decide)), if_neg (hne (by decide)), if_neg hcontrol]

/-- What needs no escape is written as it is. -/
theorem quoted_of_plain {text : String} (h : Plain text) :
    quoted text = '"' :: text.toList ++ ['"'] := by
  have hmap : text.toList.map escapeChar = text.toList.map fun c => [c] :=
    List.map_congr_left fun c hc => escapeChar_of_plain (h c hc)
  rw [quoted, List.flatMap_def, hmap, ← List.flatMap_def, List.flatMap_singleton']

/-- No number is spelled `null`. -/
theorem IsLiteral.ne_null {literal : List Char} (h : IsLiteral literal) :
    literal ≠ ['n', 'u', 'l', 'l'] := by
  obtain ⟨c, cs, rfl, hc⟩ := h.starts
  intro heq
  obtain rfl := (List.cons.inj heq).1
  exact absurd hc (by decide)

theorem spells_number {literal : List Char}
    (h : IsLiteral literal ∨ literal = ['n', 'u', 'l', 'l']) :
    Spells (number literal).restored literal := by
  rcases h with h | rfl
  · rw [restored, if_neg h.ne_null]
    exact ⟨rfl, h⟩
  · exact rfl

/-! ### Both layouts -/

mutual

theorem compact_spells : ∀ j : Json, j.Writable → Spells j.restored j.compact
  | null, _ => rfl
  | unreadable, _ => rfl
  | bool true, _ => rfl
  | bool false, _ => rfl
  | number _, h => spells_number h
  | string _, h => ⟨quoted_of_plain h, h⟩
  | array [], _ => ⟨[], Spaces.nil, rfl⟩
  | array (item :: items), ⟨hitem, hitems⟩ =>
      ⟨[], _, _, Spaces.nil, compact_spells item hitem, compactItems_spells items hitems, rfl⟩
  | object [], _ => ⟨[], Spaces.nil, rfl⟩
  | object ((name, value) :: members), ⟨hname, hvalue, hmembers⟩ => by
      refine ⟨[], [], _, _, Spaces.nil, hname, Spaces.nil, compact_spells value hvalue,
        compactMembers_spells members hmembers, ?_⟩
      simp [compact, quoted_of_plain hname]

theorem compactItems_spells :
    ∀ items, WritableItems items → SpellsItems (restoredItems items) (compactItems items)
  | [], _ => Spaces.nil
  | item :: items, ⟨hitem, hitems⟩ =>
      ⟨[], _, _, Spaces.nil, compact_spells item hitem, compactItems_spells items hitems, rfl⟩

theorem compactMembers_spells :
    ∀ members, WritableMembers members →
      SpellsMembers (restoredMembers members) (compactMembers members)
  | [], _ => Spaces.nil
  | (name, value) :: members, ⟨hname, hvalue, hmembers⟩ => by
      refine ⟨[], [], _, _, Spaces.nil, hname, Spaces.nil, compact_spells value hvalue,
        compactMembers_spells members hmembers, ?_⟩
      simp [compactMembers, quoted_of_plain hname]

end

theorem spaces_newLine (depth : Nat) : Spaces (newLine depth) := by
  intro c hc
  rcases List.mem_cons.1 hc with rfl | hc
  · rfl
  · rw [List.eq_of_mem_replicate hc]
    rfl

theorem spaces_blank : Spaces [' '] := by
  intro c hc
  rw [List.mem_singleton.1 hc]
  rfl

mutual

theorem pretty_spells : ∀ (j : Json) (depth : Nat), j.Writable → Spells j.restored (j.pretty depth)
  | null, _, _ => rfl
  | unreadable, _, _ => rfl
  | bool true, _, _ => rfl
  | bool false, _, _ => rfl
  | number _, _, h => spells_number h
  | string _, _, h => ⟨quoted_of_plain h, h⟩
  | array [], _, _ => ⟨[], Spaces.nil, rfl⟩
  | array (item :: items), depth, ⟨hitem, hitems⟩ => by
      refine ⟨_, _, _, spaces_newLine (depth + 1), pretty_spells item (depth + 1) hitem,
        prettyItems_spells items (depth + 1) hitems (spaces_newLine depth), ?_⟩
      simp [pretty]
  | object [], _, _ => ⟨[], Spaces.nil, rfl⟩
  | object ((name, value) :: members), depth, ⟨hname, hvalue, hmembers⟩ => by
      refine ⟨_, _, _, _, spaces_newLine (depth + 1), hname, spaces_blank,
        pretty_spells value (depth + 1) hvalue,
        prettyMembers_spells members (depth + 1) hmembers (spaces_newLine depth), ?_⟩
      simp [pretty, quoted_of_plain hname]

theorem prettyItems_spells :
    ∀ (items : List Json) (depth : Nat) {closing : List Char}, WritableItems items →
      Spaces closing → SpellsItems (restoredItems items) (prettyItems depth items ++ closing)
  | [], _, _, _, hclosing => hclosing
  | item :: items, depth, _, ⟨hitem, hitems⟩, hclosing => by
      refine ⟨_, _, _, spaces_newLine depth, pretty_spells item depth hitem,
        prettyItems_spells items depth hitems hclosing, ?_⟩
      simp [prettyItems]

theorem prettyMembers_spells :
    ∀ (members : List (String × Json)) (depth : Nat) {closing : List Char},
      WritableMembers members → Spaces closing →
        SpellsMembers (restoredMembers members) (prettyMembers depth members ++ closing)
  | [], _, _, _, hclosing => hclosing
  | (name, value) :: members, depth, _, ⟨hname, hvalue, hmembers⟩, hclosing => by
      refine ⟨_, _, _, _, spaces_newLine depth, hname, spaces_blank,
        pretty_spells value depth hvalue, prettyMembers_spells members depth hmembers hclosing, ?_⟩
      simp [prettyMembers, quoted_of_plain hname]

end

/-- **A text without white space is read back.** -/
theorem read?_text {j : Json} (h : j.Writable) : read? j.text = some j.restored :=
  read?_of_spells (compact_spells j h)

/-- **A text over several lines is read back.** -/
theorem read?_prettyText {j : Json} (h : j.Writable) : read? j.prettyText = some j.restored :=
  read?_of_spells (pretty_spells j 0 h)

end RobotControl.Json
