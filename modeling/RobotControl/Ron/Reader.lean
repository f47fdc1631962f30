import RobotControl.Data.Basic
import RobotControl.Decimal.Literal
import RobotControl.Text.Hex

/-!
Reading RON documents.

A document is one value: a truth value, a number, a character, a string, an optional value, a list
in brackets, a map in braces, or a record in parentheses. A record has named fields, or is a list.
It may have a name, which does not count, and a name alone stands for no value. No value lies in
more than `levelLimit` others. Names of extensions may stand in front of the value; they change
nothing in what it holds.

All readers here split something off the beginning of a text and answer it with the rest; they take
at least one character each time around, so the length of the text bounds their recursion.
-/

namespace RobotControl.Ron

/-! ### Between tokens -/

def isSpace (c : Char) : Bool :=
  c == ' ' || c == '\t' || c == '\n' || c == '\r'

/-- What is left after the end of comments, so many of them one inside the other. -/
def endComment : (depth : Nat) → List Char → Option (List Char)
  | 0, cs => some cs
  | _ + 1, [] => none
  | depth + 1, '*' :: '/' :: rest => endComment depth rest
  | depth + 1, '/' :: '*' :: rest => endComment (depth + 2) rest
  | depth + 1, _ :: rest => endComment (depth + 1) rest

/-- What is left after spaces and comments. -/
def skipSpace : (fuel : Nat) → List Char → Option (List Char)
  | 0, cs => some cs
  | fuel + 1, cs => match cs.dropWhile isSpace with
    | '/' :: '/' :: rest => skipSpace fuel (rest.dropWhile (· != '\n'))
    | '/' :: '*' :: rest => (endComment 1 rest).bind (skipSpace fuel)
    | '/' :: _ => none
    | rest => some rest

def skip (cs : List Char) : Option (List Char) :=
  skipSpace (cs.length + 1) cs

/-- Passes over a comma, if there is one, and the spaces around it. -/
def skipComma (cs : List Char) : Option (Bool × List Char) := do
  match ← skip cs with
  | ',' :: rest => return (true, ← skip rest)
  | rest => return (false, rest)

/-! ### Names -/

def beginsName (c : Char) : Bool :=
  c.isAlpha || c == '_'

def inName (c : Char) : Bool :=
  c.isAlphanum || c == '_'

/-- A character of a name behind `r#`. -/
def inRawName (c : Char) : Bool :=
  inName c || c == '.' || c == '+' || c == '-'

/-- Splits off a name. What begins a raw string is none, and neither is a name with characters that
only raw names have. -/
def splitName : List Char → Option (List Char × List Char)
  | 'r' :: '"' :: _ => none
  | 'r' :: '#' :: rest =>
    let name := rest.takeWhile inRawName
    if name.isEmpty then none else some (name, rest.drop name.length)
  | cs =>
    let name := cs.takeWhile inName
    let isRaw := cs.head? != some 'r' && decide (name.length < (cs.takeWhile inRawName).length)
    if !cs.head?.any beginsName || isRaw then none else some (name, cs.drop name.length)

/-- Splits off a word that is not the beginning of a longer one. -/
def splitWord (word : String) (cs : List Char) : Option (List Char) :=
  let rest := cs.drop word.length
  if word.toList.isPrefixOf cs && !rest.head?.any inName then some rest else none

/-! ### Strings and characters -/

/-- Splits off what stands behind a backslash. -/
def splitEscape : List Char → Option (Char × List Char)
  | '\'' :: rest => some ('\'', rest)
  | '"' :: rest => some ('"', rest)
  | '\\' :: rest => some ('\\', rest)
  | 'n' :: rest => some ('\n', rest)
  | 'r' :: rest => some ('\r', rest)
  | 't' :: rest => some ('\t', rest)
  | '0' :: rest => some ('\x00', rest)
  | 'x' :: rest => Text.splitCodePoint 2 rest
  | 'u' :: '\x7b' :: rest =>
    let digits := rest.takeWhile (· != '\x7d')
    if digits.isEmpty || decide (6 < digits.length) || rest.length = digits.length then none
    else (Text.splitCodePoint digits.length rest).map fun (c, rest) => (c, rest.drop 1)
  | _ => none

/-- Splits off the rest of a string with its closing quote. -/
def splitString : (fuel : Nat) → List Char → Option (List Char × List Char)
  | 0, _ => none
  | _ + 1, [] => none
  | fuel + 1, c :: cs =>
    if c = '"' then some ([], cs)
    else if c = '\\' then do
      let (c, rest) ← splitEscape cs
      let (text, rest) ← splitString fuel rest
      return (c :: text, rest)
    else do
      let (text, rest) ← splitString fuel cs
      return (c :: text, rest)

/-- Splits off the rest of a raw string, which ends at a quote with so many number signs behind
it. -/
def splitRaw (signs : List Char) : List Char → Option (List Char × List Char)
  | [] => none
  | c :: rest =>
    if c = '"' ∧ signs.isPrefixOf rest then some ([], rest.drop signs.length)
    else (splitRaw signs rest).map fun (text, rest) => (c :: text, rest)

/-- Splits off the rest of a character with its closing quote. -/
def splitChar : List Char → Option (Char × List Char)
  | '\\' :: rest => do
    match ← splitEscape rest with
    | (c, '\'' :: rest) => return (c, rest)
    | _ => none
  | '\'' :: _ => none
  | c :: '\'' :: rest => some (c, rest)
  | _ => none

/-! ### Numbers -/

/-- The base of a whole number and its digits, by the mark in front. -/
def splitBase : List Char → Nat × List Char
  | '0' :: 'x' :: rest => (16, rest)
  | '0' :: 'b' :: rest => (2, rest)
  | '0' :: 'o' :: rest => (8, rest)
  | cs => (10, cs)

def inInteger (c : Char) : Bool :=
  (Text.hexValue? c).isSome || c == '_'

def inFloat (c : Char) : Bool :=
  c.isDigit || c == 'e' || c == 'E' || c == '.' || c == '+' || c == '-' || c == '_'

/-- Splits off a whole number. Underscores may stand behind its first digit. -/
def splitInteger (cs : List Char) : Option (Int × List Char) := do
  let signed := cs.head? == some '+' || cs.head? == some '-'
  let (negative, body) := Decimal.splitSign cs
  let (base, body) := splitBase body
  let digits := body.takeWhile inInteger
  if digits.isEmpty || digits.head? == some '_' then none
  else
    let values ← (digits.filter (· != '_')).mapM fun c => (Text.hexValue? c).filter (· < base)
    let size := values.foldl (fun n d => base * n + d) 0
    let n : Int := if negative then -size else size
    if Data.isWord n || (!signed && size < UInt64.size) then return (n, body.drop digits.length)
    else none

/-- Splits off a float. -/
def splitFloat (cs : List Char) : Option (Float × List Char) :=
  let named (word : String) : Option (Float × List Char) := do
    let rest ← splitWord word cs
    return (← Decimal.read? word.toList, rest)
  match ["inf", "+inf", "-inf", "NaN", "+NaN", "-NaN"].findSome? named with
  | some found => some found
  | none =>
    let literal := cs.takeWhile inFloat
    (Decimal.read? literal).map fun x => (x, cs.drop literal.length)

/-- Splits off a number. What no whole number can hold is a float. -/
def splitNumber (cs : List Char) : Option (Data × List Char) :=
  let body := (Decimal.splitSign cs).2
  let looksFloat := (body.takeWhile inInteger).length < (body.takeWhile inFloat).length
  let whole := if looksFloat then none else splitInteger cs
  match whole with
  | some (n, rest) => some (if Data.isWord n then .integer n else .float (Float.ofInt n), rest)
  | none => (splitFloat cs).map fun (x, rest) => (.float x, rest)

/-! ### Values -/

/-- The name of an entry of a map. -/
def entryName? : Data → Option String
  | .text s => some s
  | _ => none

/-- The parenthesis behind this one opens a record with named fields. -/
def hasFields (cs : List Char) : Bool :=
  match skip cs with
  | some cs => match splitName cs with
    | some (_, rest) => match skip rest with
      | some (':' :: _) => true
      | _ => false
    | none => false
  | none => false

/-- The most values that a value may lie in. -/
def levelLimit : Nat := 128

mutual

/-- Splits off a value. It and what it holds have so many levels. -/
def splitValue : (fuel levels : Nat) → List Char → Option (Data × List Char)
  | 0, _, _ | _, 0, _ => none
  | fuel + 1, levels + 1, cs =>
    let word (text : String) (v : Data) : Option (Data × List Char) :=
      (splitWord text cs).map fun rest => (v, rest)
    let words := [("true", Data.boolean true), ("false", .boolean false), ("None", .nothing),
      ("inf", .float (1.0 / 0.0)), ("NaN", .float (0.0 / 0.0))]
    match words.findSome? fun entry => word entry.1 entry.2 with
    | some found => some found
    | none => match splitWord "Some" cs with
      | some rest => do
        match ← skip rest with
        | '(' :: rest =>
          let (v, rest) ← splitValue fuel levels (← skip rest)
          match ← skipComma rest with
          | (_, ')' :: rest) => return (v, rest)
          | _ => none
        | _ => none
      | none => match splitName cs with
        | some (_, rest) => do
          match ← skip rest with
          | '(' :: rest => splitRecord fuel levels rest
          | rest => return (.nothing, rest)
        | none => match cs with
          | '(' :: ')' :: rest => some (.nothing, rest)
          | '(' :: rest => splitRecord fuel levels rest
          | '[' :: rest => (splitItems ']' fuel levels true rest).map fun (items, rest) =>
              (.list items, rest)
          | '{' :: rest => (splitEntries fuel levels true rest).map fun (entries, rest) =>
              (.table (Data.ofRepeated entries), rest)
          | '"' :: rest => (splitString (rest.length + 1) rest).map fun (text, rest) =>
              (.text (String.ofList text), rest)
          | 'r' :: rest =>
            let signs := rest.takeWhile (· == '#')
            match rest.drop signs.length with
            | '"' :: rest => (splitRaw signs rest).map fun (text, rest) =>
                (.text (String.ofList text), rest)
            | _ => none
          | '\'' :: rest => (splitChar rest).map fun (c, rest) =>
              (.text (String.ofList [c]), rest)
          | c :: _ =>
            if c.isDigit || c == '+' || c == '-' || c == '.' then splitNumber cs else none
          | [] => none

/-- Splits off a record behind its opening parenthesis: its fields, or its items. -/
def splitRecord : (fuel levels : Nat) → List Char → Option (Data × List Char)
  | 0, _, _ => none
  | fuel + 1, levels, cs =>
    if hasFields cs then
      (splitFields fuel levels true cs).map fun (entries, rest) =>
        (.table (Data.ofRepeated entries), rest)
    else (splitItems ')' fuel levels true cs).map fun (items, rest) => (.list items, rest)

/-- Splits off items and the character that closes them. -/
def splitItems (close : Char) :
    (fuel levels : Nat) → (separated : Bool) → List Char → Option (List Data × List Char)
  | 0, _, _, _ => none
  | fuel + 1, levels, separated, cs => do
    match ← skip cs with
    | [] => none
    | c :: rest =>
      if c = close then return ([], rest)
      else if !separated then none
      else
        let (item, rest) ← splitValue fuel levels (c :: rest)
        let (separated, rest) ← skipComma rest
        let (items, rest) ← splitItems close fuel levels separated rest
        return (item :: items, rest)

/-- Splits off the entries of a map and its closing brace. -/
def splitEntries : (fuel levels : Nat) → (separated : Bool) → List Char →
    Option (List (String × Data) × List Char)
  | 0, _, _, _ => none
  | fuel + 1, levels, separated, cs => do
    match ← skip cs with
    | '}' :: rest => return ([], rest)
    | rest =>
      if !separated then none
      else
        let (name, rest) ← splitValue fuel levels rest
        let name ← entryName? name
        match ← skip rest with
        | ':' :: rest =>
          let (v, rest) ← splitValue fuel levels (← skip rest)
          let (separated, rest) ← skipComma rest
          let (entries, rest) ← splitEntries fuel levels separated rest
          return ((name, v) :: entries, rest)
        | _ => none

/-- Splits off the fields of a record and its closing parenthesis. -/
def splitFields : (fuel levels : Nat) → (separated : Bool) → List Char →
    Option (List (String × Data) × List Char)
  | 0, _, _, _ => none
  | fuel + 1, levels, separated, cs => do
    match ← skip cs with
    | ')' :: rest => return ([], rest)
    | rest =>
      if !separated then none
      else
        let (name, rest) ← splitName rest
        match ← skip rest with
        | ':' :: rest =>
          let (v, rest) ← splitValue fuel levels (← skip rest)
          let (separated, rest) ← skipComma rest
          let (entries, rest) ← splitFields fuel levels separated rest
          return ((String.ofList name, v) :: entries, rest)
        | _ => none

end

/-! ### Documents -/

/-- The names of extensions. -/
def extensions : List String :=
  ["unwrap_newtypes", "implicit_some", "unwrap_variant_newtypes"]

/-- Splits several marks off, with spaces between them. -/
def splitMarks : List String → List Char → Option (List Char)
  | [], cs => some cs
  | mark :: marks, cs => do
    let cs ← skip cs
    if mark.toList.isPrefixOf cs then splitMarks marks (cs.drop mark.length) else none

/-- Splits off names of extensions with commas between them. -/
def splitExtensions : (fuel : Nat) → List Char → Option (List Char)
  | 0, _ => none
  | fuel + 1, cs => do
    let (name, rest) ← splitName cs
    if extensions.contains (String.ofList name) then
      let (separated, rest) ← skipComma rest
      if separated && rest.head?.any inName then splitExtensions fuel rest else return rest
    else none

/-- What is left after the declarations of extensions. -/
def skipDeclarations : (fuel : Nat) → List Char → Option (List Char)
  | 0, _ => none
  | fuel + 1, cs => do
    match ← skip cs with
    | '#' :: rest =>
      let rest ← splitMarks ["!", "[", "enable", "("] rest
      let rest ← splitMarks [")", "]"] (← splitExtensions (rest.length + 1) (← skip rest))
      skipDeclarations fuel rest
    | rest => return rest

/-- Reads a document. What is no table is refused. -/
def read? (text : String) : Option (List (String × Data)) := do
  let cs := text.toList
  let body ← skipDeclarations (cs.length + 1) cs
  match ← splitValue (2 * body.length + 2) (levelLimit + 1) body with
  | (.table entries, rest) => if (← skip rest).isEmpty then return entries else none
  | _ => none

end RobotControl.Ron
