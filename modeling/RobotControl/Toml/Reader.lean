import RobotControl.Text.Blank
import RobotControl.Toml.Scalar
import RobotControl.Toml.Tables

/-!
Reading TOML documents.

A document is a list of lines: headers of tables, headers of items of arrays, and keys with values.
Arrays may run over several lines, inline tables may not. Arrays and inline tables nest fewer than
`nestingLimit` levels deep, and keys have fewer parts than that.
-/

namespace RobotControl.Toml

def nestingLimit : Nat := 80

/-- What is left after blanks, line ends and comments. -/
def skipLayout : (fuel : Nat) → List Char → List Char
  | 0, cs => cs
  | fuel + 1, cs => match skipGap cs with
    | '#' :: rest => skipLayout fuel (rest.dropWhile isPrintable)
    | rest => match splitNewline rest with
      | some rest => skipLayout fuel rest
      | none => rest

def skipAllLayout (cs : List Char) : List Char :=
  skipLayout (cs.length + 1) cs

/-- A key, of no more parts than allowed. -/
def splitPath (cs : List Char) : Option (List String × List Char) := do
  let (key, rest) ← splitKey (cs.length + 1) cs
  if key.length < nestingLimit then return (key, rest) else none

/-- Splits off the items of an array and its closing bracket. -/
def splitItems (value : List Char → Option (Toml × List Char)) :
    (fuel : Nat) → List Char → Option (List Toml × List Char)
  | 0, _ => none
  | fuel + 1, cs => match skipAllLayout cs with
    | ']' :: rest => some ([], rest)
    | rest => do
      let (item, rest) ← value rest
      match skipAllLayout rest with
      | ',' :: rest =>
        let (items, rest) ← splitItems value fuel rest
        return (item :: items, rest)
      | ']' :: rest => return ([item], rest)
      | _ => none

/-- Splits off the entries of an inline table and its closing brace. -/
def splitEntries (value : List Char → Option (Toml × List Char)) :
    (fuel : Nat) → Entries → List Char → Option (Entries × List Char)
  | 0, _, _ => none
  | fuel + 1, entries, cs => do
    let (key, rest) ← splitPath (skipGap cs)
    match skipGap rest with
    | '=' :: rest =>
      let (v, rest) ← value (skipGap rest)
      let (_, entries) ← entries.insert key v .header
      match skipGap rest with
      | ',' :: rest => splitEntries value fuel entries rest
      | '\x7d' :: rest => return (entries, rest)
      | _ => none
    | _ => none

/-- Splits off a value that may nest `levels` levels deep. -/
def splitValue : (levels : Nat) → List Char → Option (Toml × List Char)
  | levels, '[' :: rest => match levels with
    | 0 => none
    | levels + 1 => do
      let (items, rest) ← splitItems (splitValue levels) (rest.length + 1) rest
      return (.array items, rest)
  | levels, '\x7b' :: rest => match levels with
    | 0 => none
    | levels + 1 => match skipGap rest with
      | '\x7d' :: rest => some (.table [], rest)
      | rest => do
        let (entries, rest) ← splitEntries (splitValue levels) (rest.length + 1) [] rest
        return (.table (Node.entriesToToml entries), rest)
  | _, cs =>
    if cs.head? == some '"' || cs.head? == some '\'' then
      (splitString cs).map fun (text, rest) => (.string text, rest)
    else splitScalar cs

/-- What a line of a document says. -/
inductive Line where
  | table (key : List String)
  | item (key : List String)
  | entry (key : List String) (value : Toml)

/-- What is left after a line: nothing but blanks and a comment may stand before its end. -/
def endLine (cs : List Char) : Option (List Char) :=
  let rest := match skipGap cs with
    | '#' :: rest => rest.dropWhile isPrintable
    | rest => rest
  if rest.isEmpty then some [] else splitNewline rest

/-- Splits off one line. -/
def splitLine : List Char → Option (Line × List Char)
  | '[' :: '[' :: rest => do
    let (key, rest) ← splitPath (skipGap rest)
    match skipGap rest with
    | ']' :: ']' :: rest => return (.item key, ← endLine rest)
    | _ => none
  | '[' :: rest => do
    let (key, rest) ← splitPath (skipGap rest)
    match skipGap rest with
    | ']' :: rest => return (.table key, ← endLine rest)
    | _ => none
  | cs => do
    let (key, rest) ← splitPath cs
    match skipGap rest with
    | '=' :: rest =>
      let (v, rest) ← splitValue (nestingLimit - 1) (skipGap rest)
      return (.entry key v, ← endLine rest)
    | _ => none

/-- All the lines of a document. -/
def splitDocument : (fuel : Nat) → List Char → Option (List Line)
  | 0, _ => none
  | fuel + 1, cs => match skipAllLayout cs with
    | [] => some []
    | rest => do
      let (line, rest) ← splitLine rest
      let lines ← splitDocument fuel rest
      return line :: lines

/-- A document under way: what it holds, and the table that the lines belong to. -/
structure Draft where
  entries : Entries
  current : List String

/-- Carries out what a line says. -/
def Draft.add (d : Draft) : Line → Option Draft
  | .entry key v => do
    let (_, entries) ← Entries.atPath .implied (Entries.insert key v) d.current .header d.entries
    return { d with entries }
  | .table key => do
    let name ← key.getLast?
    let (_, entries) ←
      Entries.atPath .implied (Entries.openTable name) key.dropLast .header d.entries
    return ⟨entries, key⟩
  | .item key => do
    let name ← key.getLast?
    let (_, entries) ←
      Entries.atPath .implied (Entries.openItem name) key.dropLast .header d.entries
    return ⟨entries, key⟩

/-- Reads a document and answers the entries of its table. -/
def read? (text : String) : Option (List (String × Toml)) := do
  let cs := Text.dropByteOrderMark text.toList
  let lines ← splitDocument (cs.length + 1) cs
  let draft ← lines.foldlM Draft.add ⟨[], []⟩
  return Node.entriesToToml draft.entries

end RobotControl.Toml
