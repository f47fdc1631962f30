/-!
TOML values.

Dates and times are kept as text. A table keeps its entries in the order in which they were made,
and every name stands once.
-/

namespace RobotControl

inductive Toml where
  | string (text : String)
  | integer (value : Int)
  | float (value : Float)
  | boolean (value : Bool)
  | datetime (text : String)
  | array (items : List Toml)
  | table (entries : List (String × Toml))
deriving Inhabited

namespace Toml

/-- The entry of a table with a name. -/
def entry? (entries : List (String × Toml)) (name : String) : Option Toml :=
  (entries.find? fun entry => entry.1 == name).map (·.2)

end Toml

end RobotControl
