/-!
Environment variables.

The variables are listed in the order in which they were set. The order matters to readers that
ignore the case of names: of two names that are one to them, the later one counts.
-/

namespace RobotControl

structure Environment where
  bindings : List (String × String)

namespace Environment

def empty : Environment := ⟨[]⟩

def get? (e : Environment) (name : String) : Option String :=
  (e.bindings.find? fun v => v.1 == name).map (·.2)

/-- Gives a variable a value. -/
def set (e : Environment) (name value : String) : Environment :=
  ⟨e.bindings.filter (fun v => v.1 != name) ++ [(name, value)]⟩

/-- Gives a variable a value unless it has one. -/
def supply (e : Environment) (name value : String) : Environment :=
  if (e.get? name).isSome then e else e.set name value

end Environment

end RobotControl
