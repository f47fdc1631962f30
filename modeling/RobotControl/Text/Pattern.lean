import RobotControl.Text.Blank
import RobotControl.Text.Hex
import RobotControl.Text.Letter

/-!
Patterns.

A pattern is a regular expression. `isPattern` says whether a text is one: groups and classes are
closed, repetitions follow something, escapes and flags are known. It does not say what a pattern
matches.

Two kinds of expressions are left out. A counted repetition is written with braces, which cannot
stand in the texts that hold patterns here. The ends of words are refused unless Unicode is switched
off, because patterns run as automata, which look at one byte at a time.
-/

namespace RobotControl.Text

/-- The flags that decide how a pattern is read. -/
structure PatternFlags where
  /-- Blanks and comments do not count. -/
  verbose : Bool := false
  /-- The pattern is about characters, and not about bytes. -/
  unicode : Bool := true

namespace PatternFlags

/-- What is left after blanks and comments. -/
def skipVerbose ( inComment : Bool) : List Char → List Char
  | [] => []
  | c :: cs =>
    if inComment then skipVerbose (c != '\n') cs
    else if isBlank c then skipVerbose false cs
    else if c = '#' then skipVerbose true cs
    else c :: cs

/-- What is left after what does not count. -/
def skip (flags : PatternFlags) (cs : List Char) : List Char :=
  if flags.verbose then skipVerbose false cs else cs

/-- Switches the flags in front of a minus on, and those behind it off. -/
def switch (flags : PatternFlags) (letters : List Char) : PatternFlags :=
  let on := letters.takeWhile (· != '-')
  let off := letters.dropWhile (· != '-')
  { verbose := on.contains 'x' || (flags.verbose && !off.contains 'x')
    unicode := on.contains 'u' || (flags.unicode && !off.contains 'u') }

end PatternFlags

namespace Pattern

/-! ### Escapes -/

/-- What an escape stands for. -/
inductive Escape where
  | char (c : Char)
  /-- A class of characters; the flag says that all of them are ASCII when Unicode is off. -/
  | set ( isAscii : Bool)
  /-- A place in the text. -/
  | place

/-- A character that stands for itself behind a backslash. -/
def isEscapable (c : Char) : Bool :=
  c.toNat < 0x80 && !c.isAlphanum && c != '<' && c != '>'

/-- A number of a character can be named. Without Unicode only ASCII can. -/
def named (flags : PatternFlags) (size : Nat) (cs : List Char) : Option (Escape × List Char) := do
  let (c, rest) ← splitCodePoint size cs
  if flags.unicode || c.toNat < 0x80 then return (.char c, rest) else none

/-- Splits off what stands behind a backslash. -/
def splitEscape (flags : PatternFlags) : List Char → Option (Escape × List Char)
  | [] => none
  | 'x' :: rest => named flags 2 rest
  | 'u' :: rest => named flags 4 rest
  | 'U' :: rest => named flags 8 rest
  | 'p' :: c :: rest | 'P' :: c :: rest =>
    if flags.unicode && ['c', 'l', 'm', 'n', 'p', 's', 'z'].contains c.toLower then
      some (.set true, rest)
    else none
  | c :: rest =>
    if c = 'd' ∨ c = 's' ∨ c = 'w' then some (.set true, rest)
    else if c = 'D' ∨ c = 'S' ∨ c = 'W' then some (.set flags.unicode, rest)
    else if c = 'A' ∨ c = 'z' then some (.place, rest)
    else if c = 'b' ∨ c = 'B' ∨ c = '<' ∨ c = '>' then
      if flags.unicode then none else some (.place, rest)
    else if c = 'a' then some (.char '\x07', rest)
    else if c = 'f' then some (.char '\x0c', rest)
    else if c = 't' then some (.char '\t', rest)
    else if c = 'n' then some (.char '\n', rest)
    else if c = 'r' then some (.char '\r', rest)
    else if c = 'v' then some (.char '\x0b', rest)
    else if isEscapable c then some (.char c, rest)
    else none

/-! ### Classes -/

/-- The names of classes of ASCII characters. -/
def asciiClasses : List String :=
  ["alnum", "alpha", "ascii", "blank", "cntrl", "digit", "graph", "lower", "print", "punct",
    "space", "upper", "word", "xdigit"]

/-- Splits off a named class of ASCII characters behind its opening bracket. -/
def splitAsciiClass : List Char → Option (List Char)
  | ':' :: cs =>
    let cs := if cs.head? == some '^' then cs.drop 1 else cs
    match cs.dropWhile (· != ':') with
    | ':' :: ']' :: rest =>
      if asciiClasses.contains (String.ofList (cs.takeWhile (· != ':'))) then some rest else none
    | _ => none
  | _ => none

/-- Splits off one member of a class. -/
def splitMember (flags : PatternFlags) : List Char → Option (Escape × List Char)
  | [] => none
  | '\\' :: rest => splitEscape flags rest
  | c :: rest => if flags.unicode || c.toNat < 0x80 then some (.char c, rest) else none

/-- Splits off a member of a class or a range between two of them. -/
def splitRange (flags : PatternFlags) (cs : List Char) : Option (List Char) := do
  let (first, rest) ← splitMember flags cs
  let rest := flags.skip rest
  let next := (flags.skip (rest.drop 1)).head?
  if rest.head? == some '-' && next != some ']' && next != some '-' then
    match first, ← splitMember flags (flags.skip (rest.drop 1)) with
    | .char first, (.char last, rest) => if first ≤ last then return rest else none
    | _, _ => none
  else match first with
    | .char _ => return rest
    | .set isAscii => if flags.unicode || isAscii then return rest else none
    | .place => none

/-- Drops what may open a class: a sign that turns it around, and characters that would end it or
make a range of it, but stand for themselves here. -/
def openClass (flags : PatternFlags) (cs : List Char) : Option (List Char) :=
  let cs := flags.skip cs
  match cs with
  | '^' :: rest => if flags.unicode then some (openMembers (flags.skip rest)) else none
  | _ => some (openMembers cs)
where
  openMembers (cs : List Char) : List Char :=
    let rest := cs.dropWhile (· == '-')
    if rest.length = cs.length && rest.head? == some ']' then rest.drop 1 else rest

/-- What is left after the rest of a class that lies in `depth` others. Every step takes at least
one character, so the length of the text bounds their number. -/
def splitClass (flags : PatternFlags) : (fuel depth : Nat) → List Char → Option (List Char)
  | 0, _, _ => none
  | fuel + 1, depth, cs => match flags.skip cs with
    | [] => none
    | ']' :: rest => match depth with
      | 0 => some rest
      | depth + 1 => splitClass flags fuel depth rest
    | '[' :: rest => match splitAsciiClass rest with
      | some rest => splitClass flags fuel depth rest
      | none => (openClass flags rest).bind (splitClass flags fuel (depth + 1))
    | '&' :: '&' :: rest | '-' :: '-' :: rest | '~' :: '~' :: rest =>
      splitClass flags fuel depth rest
    | rest => (splitRange flags rest).bind (splitClass flags fuel depth)

/-! ### Groups -/

/-- Splits off flags and the character behind them. No flag stands twice, and a minus has one behind
it. -/
def splitFlags (seen : List Char) : List Char → Option (List Char × Char × List Char)
  | [] => none
  | c :: rest =>
    if c = ':' ∨ c = ')' then
      if seen.head? == some '-' then none else some (seen.reverse, c, rest)
    else if ['i', 'm', 's', 'U', 'u', 'R', 'x', '-'].contains c && !seen.contains c then
      splitFlags (c :: seen) rest
    else none

/-- Splits off the name of a group and the bracket behind it. -/
def splitGroupName (cs : List Char) : Option (List Char × List Char) :=
  let inName (c : Char) : Bool := isAlphanumeric c || ['_', '.', '[', ']'].contains c
  let name := cs.takeWhile inName
  match cs.dropWhile inName with
  | '>' :: rest =>
    if name.head?.any fun c => isAlphabetic c || c == '_' then some (name, rest) else none
  | _ => none

/-- How a group begins. -/
inductive Opening where
  | plain
  | named (name : List Char)
  /-- A group with flags of its own. -/
  | flagged (letters : List Char)
  /-- No group: flags for the rest of the one around. -/
  | switch (letters : List Char)

/-- Splits off what may stand behind the opening parenthesis of a group. -/
def splitOpening : List Char → Option (Opening × List Char)
  | '?' :: 'P' :: '<' :: rest | '?' :: '<' :: rest =>
    (splitGroupName rest).map fun (name, rest) => (.named name, rest)
  | '?' :: rest => do
    let (letters, mark, rest) ← splitFlags [] rest
    if mark = ':' then return (.flagged letters, rest)
    else if letters.isEmpty then none
    else return (.switch letters, rest)
  | rest => some (.plain, rest)

/-! ### Patterns -/

/-- A place in a pattern: its flags, those around the open groups, the names of groups so far, and
whether something is there that can be repeated. -/
structure Place where
  flags : PatternFlags := {}
  around : List PatternFlags := []
  names : List (List Char) := []
  repeatable : Bool := false

/-- The rest of a pattern is in order. Every step takes at least one character, so the length of the
text bounds their number. -/
def scan : (fuel : Nat) → Place → List Char → Bool
  | 0, _, _ => false
  | fuel + 1, at_, cs =>
    let after := { at_ with repeatable := true }
    match at_.flags.skip cs with
    | [] => at_.around.isEmpty
    | '\\' :: rest => match splitEscape at_.flags rest with
      | some (.set isAscii, rest) => (at_.flags.unicode || isAscii) && scan fuel after rest
      | some (_, rest) => scan fuel after rest
      | none => false
    | '[' :: rest =>
      match (openClass at_.flags rest).bind (splitClass at_.flags (rest.length + 1) 0) with
      | some rest => scan fuel after rest
      | none => false
    | '(' :: rest =>
      let inside := { at_ with around := at_.flags :: at_.around, repeatable := false }
      match splitOpening (at_.flags.skip rest) with
      | some (.plain, rest) => scan fuel inside rest
      | some (.named name, rest) =>
        !at_.names.contains name && scan fuel { inside with names := name :: at_.names } rest
      | some (.flagged letters, rest) =>
        scan fuel { inside with flags := at_.flags.switch letters } rest
      | some (.switch letters, rest) =>
        scan fuel { at_ with flags := at_.flags.switch letters, repeatable := false } rest
      | none => false
    | c :: rest =>
      if c = ')' then match at_.around with
        | flags :: around => scan fuel { after with flags, around } rest
        | [] => false
      else if c = '|' then scan fuel { at_ with repeatable := false } rest
      else if c = '*' ∨ c = '+' ∨ c = '?' then at_.repeatable && scan fuel at_ rest
      else if c = '\x7b' then false
      else if at_.flags.unicode then scan fuel after rest
      else c != '.' && c.toNat < 0x80 && scan fuel after rest

end Pattern

/-- The text is a pattern. -/
def isPattern (cs : List Char) : Bool :=
  Pattern.scan (cs.length + 1) {} cs

end RobotControl.Text
