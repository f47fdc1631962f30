import RobotControl.Data.Basic
import RobotControl.Text.Blank
import RobotControl.Text.Hex

/-!
Reading INI documents.

A document assigns texts to keys, one assignment to a line, with an equals sign or a colon between
them. A name in brackets begins a section, and what stands before the first section is general. A
line that begins with a semicolon or a number sign is a comment. Values may be quoted as a whole or
in part, and a backslash escapes the character after it, or the end of the line.

Of a key that is assigned twice the last value counts, and of a section that is begun twice only the
last one.
-/

namespace RobotControl.Ini

/-- The character that a letter after a backslash stands for; others stand for themselves. -/
def escaped (c : Char) : Char :=
  if c = '0' then '\x00'
  else if c = 'a' then '\x07'
  else if c = 'b' then '\x08'
  else if c = 't' then '\t'
  else if c = 'r' then '\r'
  else if c = 'n' then '\n'
  else c

/-- Splits off a text up to a character at which it stops, and keeps that in the rest. Only an open
text may also stop at the end of the document. -/
def splitUntil (stops : Char → Bool) ( isOpen : Bool) : List Char → Option (List Char × List Char)
  | [] => if isOpen then some ([], []) else none
  | '\\' :: rest =>
    match rest with
    | [] => if isOpen then some (['\\'], []) else none
    | '\n' :: rest => splitUntil stops isOpen rest
    | 'x' :: a :: b :: c :: d :: rest => do
      let (char, _) ← Text.splitCodePoint 4 [a, b, c, d]
      let (text, rest) ← splitUntil stops isOpen rest
      return (char :: text, rest)
    | c :: rest =>
      if c = 'x' then none
      else do
        let (text, rest) ← splitUntil stops isOpen rest
        return (escaped c :: text, rest)
  | c :: rest =>
    if stops c then some ([], c :: rest)
    else do
      let (text, rest) ← splitUntil stops isOpen rest
      return (c :: text, rest)

def isLineEnd (c : Char) : Bool :=
  c == '\n' || c == '\r'

/-- Splits off a value: any number of quoted parts, and the rest of the line. Blanks around it do
not count, unless they are quoted. -/
def splitValue : (fuel : Nat) → (quoted : Bool) → List Char → Option (List Char × List Char)
  | 0, _, _ => none
  | fuel + 1, quoted, cs =>
    let afterQuote (quote : Char) (rest : List Char) : Option (List Char × List Char) := do
      let (part, rest) ← splitUntil (· == quote) false rest
      let (text, rest) ← splitValue fuel true (rest.drop 1)
      return (part ++ text, rest)
    match cs with
    | '"' :: rest => afterQuote '"' rest
    | '\'' :: rest => afterQuote '\'' rest
    | _ => do
      let (text, rest) ← splitUntil isLineEnd true cs
      return (if quoted then Text.dropTrailingBlanks text else Text.trim text, rest)

/-- What is left after blanks and line ends; the flag says whether a line begins there. -/
def skipBlanks (starts : Bool) : List Char → Bool × List Char
  | [] => (starts, [])
  | c :: cs => if Text.isBlank c then skipBlanks (c == '\n') cs else (starts, c :: cs)

/-- A section under way: its name, or none for the general one, and what it assigns. -/
structure Section where
  name : Option String
  entries : List (String × Data)

/-- Appends an assignment to the last of the sections. -/
def addEntry (key value : List Char) : List Section → List Section
  | [] => []
  | [last] => [{ last with
      entries := last.entries ++ [(String.ofList key, .text (String.ofList value))] }]
  | first :: rest => first :: addEntry key value rest

/-- Reads the sections of a document after those before. Every step takes at least one character, so
the length of the text bounds their number. -/
def readSections : (fuel : Nat) → (starts : Bool) → List Section → List Char →
    Option (List Section)
  | 0, _, _, _ => none
  | fuel + 1, starts, sections, cs =>
    match skipBlanks starts cs with
    | (_, []) => some sections
    | (starts, c :: rest) =>
      if c == ';' || c == '#' then
        if starts then readSections fuel true sections ((rest.dropWhile (· != '\n')).drop 1)
        else none
      else if c == '[' then do
        let (name, rest) ← splitUntil (· == ']') false rest
        let opened : Section := ⟨some (String.ofList (Text.trim name)), []⟩
        readSections fuel false (sections ++ [opened]) (rest.drop 1)
      else do
        let (key, rest) ← splitUntil (fun c => c == '=' || c == ':') false (c :: rest)
        let key := Text.trim key
        if key.isEmpty then none
        else
          let rest := (rest.drop 1).dropWhile fun c => Text.isBlank c && !isLineEnd c
          let (value, rest) ← splitValue (rest.length + 1) false rest
          readSections fuel false (addEntry key value sections) rest

/-- Reads a document. Its sections are tables beside the general assignments. -/
def read? (text : String) : Option (List (String × Data)) := do
  let cs := text.toList
  let sections ← readSections (cs.length + 1) true [⟨none, []⟩] cs
  return Data.ofRepeated (sections.flatMap fun s =>
    match s.name with
    | none => s.entries
    | some name => [(name, .table (Data.ofRepeated s.entries))])

end RobotControl.Ini
