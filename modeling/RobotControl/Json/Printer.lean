import RobotControl.Json.Basic

/-!
Writing JSON text.

`compact` puts nothing between tokens. `pretty` puts every item and every member on a line of its
own, two blanks further in than the brackets around it; empty arrays and objects stay closed. A
value that cannot be read is written as `null`.
-/

namespace RobotControl.Json

/-- The escape for a control character without a short one. -/
def escapeControl (c : Char) : List Char :=
  ['\\', 'u', '0', '0', Nat.digitChar (c.toNat / 16), Nat.digitChar (c.toNat % 16)]

/-- A character inside a string: quotes, backslashes and control characters are escaped. -/
def escapeChar (c : Char) : List Char :=
  if c = '"' then ['\\', '"']
  else if c = '\\' then ['\\', '\\']
  else if c = '\n' then ['\\', 'n']
  else if c = '\r' then ['\\', 'r']
  else if c = '\t' then ['\\', 't']
  else if c = '\x08' then ['\\', 'b']
  else if c = '\x0c' then ['\\', 'f']
  else if c.toNat < 0x20 then escapeControl c
  else [c]

/-- A string in quotes. -/
def quoted (text : String) : List Char :=
  '"' :: text.toList.flatMap escapeChar ++ ['"']

mutual

/-- A value without any white space. -/
def compact : Json → List Char
  | null | unreadable => ['n', 'u', 'l', 'l']
  | bool true => ['t', 'r', 'u', 'e']
  | bool false => ['f', 'a', 'l', 's', 'e']
  | number literal => literal
  | string text => quoted text
  | array [] => ['[', ']']
  | array (item :: items) => '[' :: item.compact ++ compactItems items ++ [']']
  | object [] => ['\x7b', '\x7d']
  | object ((name, value) :: members) =>
    '\x7b' :: quoted name ++ ':' :: value.compact ++ compactMembers members ++ ['\x7d']

/-- Items after the first, a comma before each. -/
def compactItems : List Json → List Char
  | [] => []
  | item :: items => ',' :: item.compact ++ compactItems items

/-- Members after the first, a comma before each. -/
def compactMembers : List (String × Json) → List Char
  | [] => []
  | (name, value) :: members =>
    ',' :: quoted name ++ ':' :: value.compact ++ compactMembers members

end

/-- A new line and the blanks before its text. -/
def newLine (depth : Nat) : List Char :=
  '\n' :: List.replicate (2 * depth) ' '

mutual

/-- A value whose first line is already indented; further lines are `depth` levels in. -/
def pretty (depth : Nat) : Json → List Char
  | null | unreadable => ['n', 'u', 'l', 'l']
  | bool true => ['t', 'r', 'u', 'e']
  | bool false => ['f', 'a', 'l', 's', 'e']
  | number literal => literal
  | string text => quoted text
  | array [] => ['[', ']']
  | array (item :: items) =>
    '[' :: newLine (depth + 1) ++ item.pretty (depth + 1) ++ prettyItems (depth + 1) items ++
      newLine depth ++ [']']
  | object [] => ['\x7b', '\x7d']
  | object ((name, value) :: members) =>
    '\x7b' :: newLine (depth + 1) ++ quoted name ++ ':' :: ' ' :: value.pretty (depth + 1) ++
      prettyMembers (depth + 1) members ++ newLine depth ++ ['\x7d']

/-- Items after the first, each on a new line after a comma. -/
def prettyItems (depth : Nat) : List Json → List Char
  | [] => []
  | item :: items => ',' :: newLine depth ++ item.pretty depth ++ prettyItems depth items

/-- Members after the first, each on a new line after a comma. -/
def prettyMembers (depth : Nat) : List (String × Json) → List Char
  | [] => []
  | (name, value) :: members =>
    ',' :: newLine depth ++ quoted name ++ ':' :: ' ' :: value.pretty depth ++
      prettyMembers depth members

end

/-- The value as text without white space. -/
def text (j : Json) : String :=
  String.ofList j.compact

/-- The value as text over several lines. -/
def prettyText (j : Json) : String :=
  String.ofList (j.pretty 0)

end RobotControl.Json
