import RobotControl.Text.Hex

/-!
Strings in TOML.

A basic string stands in double quotes and knows escapes, a literal one in single quotes and knows
none. Both also come in a form of three quotes that may run over several lines. All readers here
split something off the beginning of a text and answer it with the rest; they take at least one
character each time around, so the length of the text bounds their recursion.
-/

namespace RobotControl.Toml

/-- Control characters cannot be written; a tab can. -/
def isPrintable (c : Char) : Bool :=
  c == '\t' || (0x20 ≤ c.toNat && c.toNat != 0x7F)

def isGap (c : Char) : Bool :=
  c == ' ' || c == '\t'

/-- What is left after blanks and tabs. -/
def skipGap (cs : List Char) : List Char :=
  cs.dropWhile isGap

/-- Splits off the end of a line. -/
def splitNewline : List Char → Option (List Char)
  | '\n' :: rest => some rest
  | '\r' :: '\n' :: rest => some rest
  | _ => none

/-- Splits off what stands after a backslash. -/
def splitEscape : List Char → Option (Char × List Char)
  | 'b' :: rest => some ('\x08', rest)
  | 't' :: rest => some ('\t', rest)
  | 'n' :: rest => some ('\n', rest)
  | 'f' :: rest => some ('\x0c', rest)
  | 'r' :: rest => some ('\r', rest)
  | '"' :: rest => some ('"', rest)
  | '\\' :: rest => some ('\\', rest)
  | 'u' :: rest => Text.splitCodePoint 4 rest
  | 'U' :: rest => Text.splitCodePoint 8 rest
  | _ => none

/-- Splits off the rest of a basic string, its closing quote included. -/
def splitBasic : (fuel : Nat) → List Char → Option (List Char × List Char)
  | 0, _ => none
  | _ + 1, [] => none
  | fuel + 1, c :: cs =>
    if c == '"' then some ([], cs)
    else if c == '\\' then do
      let (c, cs) ← splitEscape cs
      let (text, rest) ← splitBasic fuel cs
      return (c :: text, rest)
    else if isPrintable c then do
      let (text, rest) ← splitBasic fuel cs
      return (c :: text, rest)
    else none

/-- Splits off the rest of a literal string, its closing quote included. -/
def splitLiteral (cs : List Char) : Option (List Char × List Char) :=
  let text := cs.takeWhile fun c => c != '\'' && isPrintable c
  match cs.dropWhile fun c => c != '\'' && isPrintable c with
  | '\'' :: rest => some (text, rest)
  | _ => none

/-- What is left after the blanks and line ends that a backslash at the end of a line takes away. -/
def skipLines : List Char → List Char
  | '\r' :: '\n' :: rest => skipLines rest
  | c :: rest => if isGap c || c == '\n' then skipLines rest else c :: rest
  | [] => []

/-- What is left after a backslash at the end of a line, if it is one. -/
def skipLineEnd (cs : List Char) : Option (List Char) :=
  (splitNewline (skipGap cs)).map skipLines

/-- Splits off the rest of a string of several lines, its closing quotes included. Two quotes in a
row may stand in such a string; of three to five, the last three close it. -/
def splitLines (quote : Char) : (fuel : Nat) → List Char → Option (List Char × List Char)
  | 0, _ => none
  | _ + 1, [] => none
  | fuel + 1, c :: cs =>
    let quotes := ((c :: cs).takeWhile (· == quote)).length
    if 5 < quotes then none
    else if 3 ≤ quotes then
      some (List.replicate (quotes - 3) quote, (c :: cs).drop quotes)
    else
      match splitNewline (c :: cs) with
      | some rest => do
        let (text, rest) ← splitLines quote fuel rest
        return ('\n' :: text, rest)
      | none =>
        if c == '\\' && quote == '"' then
          match skipLineEnd cs with
          | some rest => splitLines quote fuel rest
          | none => do
            let (c, cs) ← splitEscape cs
            let (text, rest) ← splitLines quote fuel cs
            return (c :: text, rest)
        else if isPrintable c then do
          let (text, rest) ← splitLines quote fuel cs
          return (c :: text, rest)
        else none

/-- The text of a string of several lines begins after a line end right behind its quotes. -/
def skipFirstNewline (cs : List Char) : List Char :=
  (splitNewline cs).getD cs

/-- Splits off a string of any form. -/
def splitString : List Char → Option (String × List Char)
  | '"' :: '"' :: '"' :: rest => do
    let rest := skipFirstNewline rest
    let (text, rest) ← splitLines '"' (rest.length + 1) rest
    return (String.ofList text, rest)
  | '\'' :: '\'' :: '\'' :: rest => do
    let rest := skipFirstNewline rest
    let (text, rest) ← splitLines '\'' (rest.length + 1) rest
    return (String.ofList text, rest)
  | '"' :: rest => do
    let (text, rest) ← splitBasic (rest.length + 1) rest
    return (String.ofList text, rest)
  | '\'' :: rest => do
    let (text, rest) ← splitLiteral rest
    return (String.ofList text, rest)
  | _ => none

/-- A character of a key without quotes. -/
def isBare (c : Char) : Bool :=
  c.isAlphanum || c == '-' || c == '_'

/-- Splits off one part of a key. -/
def splitSimpleKey : List Char → Option (String × List Char)
  | '"' :: rest => do
    let (text, rest) ← splitBasic (rest.length + 1) rest
    return (String.ofList text, rest)
  | '\'' :: rest => do
    let (text, rest) ← splitLiteral rest
    return (String.ofList text, rest)
  | cs =>
    let word := cs.takeWhile isBare
    if word.isEmpty then none else some (String.ofList word, cs.dropWhile isBare)

/-- Splits off a key: parts with points between them, and blanks around the points. -/
def splitKey : (fuel : Nat) → List Char → Option (List String × List Char)
  | 0, _ => none
  | fuel + 1, cs => do
    let (part, rest) ← splitSimpleKey cs
    match skipGap rest with
    | '.' :: rest =>
      let (parts, rest) ← splitKey fuel (skipGap rest)
      return (part :: parts, rest)
    | _ => return ([part], rest)

end RobotControl.Toml
