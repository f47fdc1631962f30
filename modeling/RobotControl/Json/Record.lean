import RobotControl.Json.Number

/-!
Records in JSON.

A record is an object with the names of its fields, in any order, or an array of its fields in
their own order. Members with other names are ignored; a name of the record may stand only once. A
record with a tag keeps the name of its kind in one member, or as the first item of its array.

Tagged records are taken in whole before they are looked at. So everything in them must be within
the limits of this format: `maxDepth` levels of nesting, no number too large for doubles, and no
string that is no text. Inside such a record a kind may also be given by its place in the list of
kinds. In other records, what is ignored need not be within any limit.
-/

namespace RobotControl.Json

/-- The deepest nesting of arrays and objects. -/
def maxDepth : Nat := 127

/-- How the part of a document that is being read is taken in. -/
inductive Intake where
  /-- Piece by piece. -/
  | direct
  /-- In whole, as a tagged record at the top or a part of one. -/
  | whole
deriving DecidableEq

mutual

/-- Every number has a value, and every string is a text. -/
def isReadable : Json → Bool
  | number literal => (numberValue? literal).isSome
  | array items => itemsReadable items
  | object members => membersReadable members
  | unreadable => false
  | _ => true

def itemsReadable : List Json → Bool
  | [] => true
  | item :: items => item.isReadable && itemsReadable items

def membersReadable : List (String × Json) → Bool
  | [] => true
  | (_, value) :: members => value.isReadable && membersReadable members

end

/-- The value can be taken in whole where `levels` levels of nesting are left. -/
def storable (levels : Nat) (j : Json) : Bool :=
  decide (j.depth ≤ levels) && j.isReadable

/-- The member with a name. -/
def member? (members : List (String × Json)) (name : String) : Option Json :=
  (members.find? fun entry => entry.1 == name).map (·.2)

/-- The name stands at most once. -/
def once (members : List (String × Json)) (name : String) : Bool :=
  (members.filter fun entry => entry.1 == name).length ≤ 1

/-- The fields of a record, in the order of `names`; one that is missing is none. An array must have
all of them. -/
def fields? (names : List String) : Json → Option (List (Option Json))
  | object members =>
    if names.all (once members) then some (names.map (member? members)) else none
  | array items => if items.length = names.length then some (items.map some) else none
  | _ => none

/-- The fields of a record of which none is missing. -/
def record? (names : List String) (j : Json) : Option (List Json) :=
  (j.fields? names).bind fun fields => fields.mapM id

/-- Takes a tagged record apart: its tag, and the record without it. -/
def tagged? (name : String) : Json → Option (Json × Json)
  | object members =>
    if once members name then
      (member? members name).map fun tag =>
        (tag, object (members.filter fun entry => entry.1 != name))
    else none
  | array (tag :: items) => some (tag, array items)
  | _ => none

/-- The kind that a tag names; in a nested record it may also be counted. -/
def kind? (nested : Bool) (kinds : List String) : Json → Option String
  | string text => if kinds.contains text then some text else none
  | number literal =>
    if nested then match numberValue? literal with
      | some (.natural n) => kinds[n]?
      | _ => none
    else none
  | _ => none

/-- A word out of a list. It may stand as the one name of an object that says no more. -/
def word? (intake : Intake) (words : List String) : Json → Option String
  | string text => if words.contains text then some text else none
  | object [(text, value)] =>
    let plain := match value with
      | null => true
      | object [] => intake == .whole
      | _ => false
    if plain && words.contains text then some text else none
  | _ => none

/-- A whole number that 64 bits hold. -/
def natural? : Json → Option Nat
  | number literal => match numberValue? literal with
    | some (.natural n) => some n
    | _ => none
  | _ => none

/-- A number read as a double. -/
def real? : Json → Option Float
  | number literal => (numberValue? literal).map Number.toFloat
  | _ => none

end RobotControl.Json
