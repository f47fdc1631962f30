/-!
Data.

What documents of different formats have in common: texts, numbers and truth values, lists of them,
and tables that give them names. A value may also be left open. Every name of a table stands once;
`assign` keeps it so.
-/

namespace RobotControl

inductive Data where
  /-- No value. -/
  | nothing
  | boolean (value : Bool)
  /-- A whole number that 64 bits with a sign hold. -/
  | integer (value : Int)
  | float (value : Float)
  | text (value : String)
  | list (items : List Data)
  | table (entries : List (String × Data))
deriving Inhabited

namespace Data

/-- The entry of a table with a name. -/
def entry? (entries : List (String × Data)) (name : String) : Option Data :=
  (entries.find? fun entry => entry.1 == name).map (·.2)

/-- Gives the entry with a name a value. -/
def assign (name : String) (v : Data) : List (String × Data) → List (String × Data)
  | [] => [(name, v)]
  | (n, w) :: entries => if n = name then (n, v) :: entries else (n, w) :: assign name v entries

/-- The entries of a table whose names may stand several times: the last value counts. -/
def ofRepeated (entries : List (String × Data)) : List (String × Data) :=
  entries.foldl (fun kept (name, v) => assign name v kept) []

/-- Sixty-four bits with a sign hold the number. -/
def isWord (n : Int) : Bool :=
  decide (-0x8000000000000000 ≤ n) && decide (n < 0x8000000000000000)

/-- What was assigned is found again. -/
theorem entry?_assign_self (name : String) (v : Data) (entries : List (String × Data)) :
    entry? (assign name v entries) name = some v := by
  induction entries with
  | nil => simp [assign, entry?]
  | cons entry entries ih =>
    obtain ⟨n, w⟩ := entry
    by_cases h : n = name
    · simp [assign, entry?, h]
    · simpa [assign, entry?, h] using ih

/-- Other names keep their values. -/
theorem entry?_assign_of_ne {name other : String} (h : other ≠ name) (v : Data)
    (entries : List (String × Data)) :
    entry? (assign name v entries) other = entry? entries other := by
  induction entries with
  | nil => simp [assign, entry?, h.symm]
  | cons entry entries ih =>
    obtain ⟨n, w⟩ := entry
    by_cases hn : n = name
    · subst hn
      simp [assign, entry?, h.symm]
    · by_cases ho : n = other
      · subst ho
        simp [assign, entry?, hn]
      · simpa [assign, entry?, hn, ho] using ih

end Data

end RobotControl
