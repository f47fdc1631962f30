import RobotControl.Json.Number
import RobotControl.Text.Hex

/-!
Reading JSON text.

The reader is strict: no leading zeros, no trailing commas, no control characters in strings, and
nothing but white space after the value. It does not look at the size of numbers and knows no limit
on nesting; those are up to whoever uses the value.
-/

namespace RobotControl.Json

/-- The four characters that may stand between tokens. -/
def isSpace (c : Char) : Bool :=
  c == ' ' || c == '\n' || c == '\r' || c == '\t'

def skipSpace (cs : List Char) : List Char :=
  cs.dropWhile isSpace

/-- Splits off the character named after `\u`. Characters beyond 16 bits are written as a pair of
units; half of such a pair names nothing. -/
def splitNamed (cs : List Char) : Option (Option Char × List Char) := do
  let (unit, rest) ← Text.splitHex 4 cs
  let paired : Option (Char × List Char) := match rest with
    | '\\' :: 'u' :: rest => do
      let (second, rest) ← Text.splitHex 4 rest
      if Text.isLeading unit && Text.isTrailing second then
        return (Text.pairChar unit second, rest)
      else none
    | _ => none
  match paired with
  | some (c, rest) => return (some c, rest)
  | none => return (Text.charOfCode? unit, rest)

/-- Splits off what stands after a backslash. -/
def splitEscape : List Char → Option (Option Char × List Char)
  | '"' :: rest => some ('"', rest)
  | '\\' :: rest => some ('\\', rest)
  | '/' :: rest => some ('/', rest)
  | 'b' :: rest => some ('\x08', rest)
  | 'f' :: rest => some ('\x0c', rest)
  | 'n' :: rest => some ('\n', rest)
  | 'r' :: rest => some ('\r', rest)
  | 't' :: rest => some ('\t', rest)
  | 'u' :: rest => splitNamed rest
  | _ => none

/-- Splits off the characters up to the closing quote, which are no text if one of them is none.
Each takes at least one character of the text, so `fuel` can be its length. -/
def splitString : (fuel : Nat) → List Char → Option (Option (List Char) × List Char)
  | 0, _ => none
  | _ + 1, [] => none
  | fuel + 1, c :: cs =>
    if c == '"' then some (some [], cs)
    else if c == '\\' then do
      let (c, cs) ← splitEscape cs
      let (text, rest) ← splitString fuel cs
      return (c.bind fun c => text.map (c :: ·), rest)
    else if c.toNat < 0x20 then none
    else do
      let (text, rest) ← splitString fuel cs
      return (text.map (c :: ·), rest)

/-- Splits a word off the beginning of a text. -/
def splitWord (word : String) (cs : List Char) : Option (List Char) :=
  if word.toList.isPrefixOf cs then some (cs.drop word.length) else none

mutual

/-- Splits a value off the beginning of a text, white space before it included. -/
def splitValue : (fuel : Nat) → List Char → Option (Json × List Char)
  | 0, _ => none
  | fuel + 1, cs => match skipSpace cs with
    | '"' :: rest => do
      let (text, rest) ← splitString (rest.length + 1) rest
      return (text.elim unreadable fun text => string (String.ofList text), rest)
    | '[' :: rest => match skipSpace rest with
      | ']' :: rest => some (array [], rest)
      | rest => do
        let (items, rest) ← splitItems fuel rest
        return (array items, rest)
    | '{' :: rest => match skipSpace rest with
      | '}' :: rest => some (object [], rest)
      | rest => do
        let (members, rest) ← splitMembers fuel rest
        return (members.elim unreadable object, rest)
    | 'n' :: rest => (splitWord "ull" rest).map fun rest => (null, rest)
    | 't' :: rest => (splitWord "rue" rest).map fun rest => (bool true, rest)
    | 'f' :: rest => (splitWord "alse" rest).map fun rest => (bool false, rest)
    | text => do
      let (_, rest) ← splitNumber text
      return (number (text.take (text.length - rest.length)), rest)

/-- Splits off the items of an array and its closing bracket. -/
def splitItems : (fuel : Nat) → List Char → Option (List Json × List Char)
  | 0, _ => none
  | fuel + 1, cs => do
    let (item, rest) ← splitValue fuel cs
    match skipSpace rest with
    | ',' :: rest =>
      let (items, rest) ← splitItems fuel rest
      return (item :: items, rest)
    | ']' :: rest => return ([item], rest)
    | _ => none

/-- Splits off the members of an object and its closing brace. There are none if a name is no
text. -/
def splitMembers : (fuel : Nat) → List Char → Option (Option (List (String × Json)) × List Char)
  | 0, _ => none
  | fuel + 1, cs => match skipSpace cs with
    | '"' :: rest => do
      let (name, rest) ← splitString (rest.length + 1) rest
      match skipSpace rest with
      | ':' :: rest =>
        let (value, rest) ← splitValue fuel rest
        let member := name.map fun name => (String.ofList name, value)
        match skipSpace rest with
        | ',' :: rest =>
          let (members, rest) ← splitMembers fuel rest
          return (member.bind fun member => members.map (member :: ·), rest)
        | '}' :: rest => return (member.map ([·]), rest)
        | _ => none
      | _ => none
    | _ => none

end

/-- Reads a text that is one value. Every two calls of the readers take a character off the text. -/
def read? (text : String) : Option Json :=
  let cs := text.toList
  match splitValue (2 * cs.length + 2) cs with
  | some (value, rest) => if (skipSpace rest).isEmpty then some value else none
  | none => none

end RobotControl.Json
