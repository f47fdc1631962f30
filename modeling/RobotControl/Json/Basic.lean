/-!
JSON values.

A number is kept as it was written, because what it means depends on what it is read as: a cursor
wants a whole number, an amount the nearest value of a kind of its own. An object keeps its members
in order, repeated names included.

A document may hold strings that are no texts, because half of a pair of surrogates stands alone in
them. Such a value can be passed over, but nothing can be read from it.
-/

namespace RobotControl

inductive Json where
  | null
  | bool (value : Bool)
  | number (literal : List Char)
  | string (text : String)
  | array (items : List Json)
  | object (members : List (String × Json))
  /-- A string that is no text, or an object with such a name. -/
  | unreadable
deriving Inhabited

namespace Json

mutual

/-- The levels of arrays and objects in a value. -/
def depth : Json → Nat
  | array items => depthOfItems items + 1
  | object members => depthOfMembers members + 1
  | _ => 0

def depthOfItems : List Json → Nat
  | [] => 0
  | item :: items => max item.depth (depthOfItems items)

def depthOfMembers : List (String × Json) → Nat
  | [] => 0
  | (_, value) :: members => max value.depth (depthOfMembers members)

end

/-- A whole number. -/
def ofNat (n : Nat) : Json :=
  number (Nat.toDigits 10 n)

/-- An object with one member. -/
def single (name : String) (value : Json) : Json :=
  object [(name, value)]

end Json

end RobotControl
