import RobotControl.Data.Basic
import RobotControl.Decimal.Literal
import RobotControl.Text.Hex
import RobotControl.Yaml.Token

/-!
Scalars in YAML.

A scalar is plain, quoted, or a block of lines below a mark. `splitPlain`, `splitQuoted` and
`splitBlock` answer the text of a scalar and the place behind it. Line ends in plain and quoted
scalars, and in folded blocks, are blanks; empty lines stand for line ends.

The lines of a scalar are indented further than `indent`, the column of the collection around it,
which is -1 outside of any.
-/

namespace RobotControl.Yaml

/-! ### Between words -/

/-- What stands for blanks and line ends between two words. -/
def joint (blanks : List Char) : (breaks : Nat) → List Char
  | 0 => blanks
  | 1 => [' ']
  | breaks + 1 => List.replicate breaks '\n'

/-- What becomes of a tab in the indentation of a line. -/
inductive TabRule where
  /-- It is refused. -/
  | refused
  /-- It may stand on an empty line. -/
  | emptyLine
deriving DecidableEq

/-- Passes over blanks and line ends. Answers the blanks, as far as they stand before the first line
end, and the number of line ends. -/
def skipGap (rule : TabRule) (indent : Int) :
    (fuel : Nat) → (folded : Bool) → Cursor → Option (List Char × Nat × Cursor)
  | 0, _, _ => none
  | fuel + 1, folded, c =>
    if isBreak c.head then do
      let (_, breaks, last) ← skipGap rule indent fuel true c.skipBreak
      return ([], breaks + 1, last)
    else if isBlank c.head then
      if folded then
        if c.head == some '\t' && decide (c.column < indent) then
          match rule, c.endLine with
          | .emptyLine, some (_, last) =>
            if endsLine last.head then skipGap rule indent fuel true last else none
          | _, _ => none
        else skipGap rule indent fuel true c.skipBlank
      else do
        let (blanks, breaks, last) ← skipGap rule indent fuel false c.skipBlank
        return (if breaks = 0 then c.head.toList ++ blanks else [], breaks, last)
    else some ([], 0, c)

/-! ### Plain scalars -/

/-- The characters of a plain scalar up to a blank. A colon ends it only before the end of a word,
or in brackets. -/
def plainWord ( inFlow : Bool) : List Char → List Char
  | [] => []
  | c :: rest =>
    if endsWord (some c) || (inFlow && isFlow (some c)) ||
        (c == ':' && (endsWord rest.head? || (inFlow && isFlow rest.head?))) then []
    else c :: plainWord inFlow rest

/-- Splits off the words of a plain scalar. -/
def splitPlain ( inFlow : Bool) (indent : Int) : (fuel : Nat) → Cursor → Option (List Char × Cursor)
  | 0, _ => none
  | fuel + 1, c =>
    if c.isDocumentMark || c.head == some '#' then some ([], c)
    else if inFlow && c.head == some '-' && isFlow (c.peek 1) then none
    else
      let word := plainWord inFlow c.rest
      if word.isEmpty then some ([], c)
      else do
        let after := c.skipMany word.length
        let bound := after.rest.length + 1
        let (blanks, breaks, next) ← skipGap .emptyLine (indent + 1) bound false after
        if !inFlow && decide (next.column < indent + 1) then return (word, next)
        else
          let (text, last) ← splitPlain inFlow indent fuel next
          return (if text.isEmpty then word else word ++ joint blanks breaks ++ text, last)

/-! ### Quoted scalars -/

/-- Splits off what stands behind a backslash. -/
def splitEscape : List Char → Option (Char × List Char)
  | [] => none
  | 'x' :: rest => Text.splitCodePoint 2 rest
  | 'u' :: rest => Text.splitCodePoint 4 rest
  | 'U' :: rest => Text.splitCodePoint 8 rest
  | c :: rest =>
    let known : List (Char × Char) :=
      [('0', '\x00'), ('a', '\x07'), ('b', '\x08'), ('t', '\t'), ('\t', '\t'), ('n', '\n'),
        ('v', '\x0b'), ('f', '\x0c'), ('r', '\r'), ('e', '\x1b'), (' ', ' '), ('"', '"'),
        ('/', '/'),
        ('\\', '\\'), ('N', '\u0085'), ('_', '\u00a0'), ('L', '\u2028'), ('P', '\u2029')]
    (known.find? fun entry => entry.1 == c).map fun entry => (entry.2, rest)

/-- Splits off the characters of a quoted scalar up to a blank, a line end or the closing quote. The
flag says that the line ended with a backslash. -/
def splitQuotedWord (quote : Char) : (fuel : Nat) → Cursor → Option (List Char × Bool × Cursor)
  | 0, _ => none
  | fuel + 1, c =>
    let take (char : Char) (next : Cursor) : Option (List Char × Bool × Cursor) := do
      let (word, escaped, last) ← splitQuotedWord quote fuel next
      return (char :: word, escaped, last)
    match c.rest with
    | [] => some ([], false, c)
    | char :: rest =>
      if endsWord (some char) then some ([], false, c)
      else if char = '\'' ∧ quote = '\'' ∧ rest.head? = some '\'' then take '\'' (c.skipMany 2)
      else if char = quote then some ([], false, c)
      else if char = '\\' ∧ quote = '"' then
        if isBreak rest.head? then some ([], true, c.skip.skipBreak)
        else do
          let (char, rest) ← splitEscape rest
          take char (c.skipMany (c.rest.length - rest.length))
      else take char c.skip

/-- Splits off the rest of a quoted scalar with its closing quote. -/
def splitQuoted (quote : Char) (indent : Int) : (fuel : Nat) → Cursor → Option (List Char × Cursor)
  | 0, _ => none
  | fuel + 1, c =>
    if c.isDocumentMark || c.head.isNone || decide (c.column < indent) then none
    else do
      let (word, escaped, after) ← splitQuotedWord quote (c.rest.length + 1) c
      if after.head == some quote then return (word, after.skip)
      else
        let (blanks, breaks, next) ← skipGap .refused indent (after.rest.length + 1) escaped after
        let between := if escaped then List.replicate breaks '\n' else joint blanks breaks
        let (text, last) ← splitQuoted quote indent fuel next
        return (word ++ between ++ text, last)

/-! ### Blocks -/

/-- What becomes of the line ends behind a block. -/
inductive Chomp where
  /-- The first one is kept. -/
  | clip
  | strip
  | keep
deriving DecidableEq

def Chomp.ofMark? (c : Option Char) : Option Chomp :=
  if c == some '+' then some .keep else if c == some '-' then some .strip else none

/-- Splits off a digit that says how far a block is indented; zero for none. -/
def splitIncrement (c : Cursor) : Option (Nat × Cursor) :=
  match c.head with
  | some digit =>
    if digit = '0' then none
    else if digit.isDigit then some (digit.toNat - '0'.toNat, c.skip)
    else some (0, c)
  | none => some (0, c)

/-- Splits off the signs behind the mark of a block, in either order. -/
def splitHeader (c : Cursor) : Option (Chomp × Nat × Cursor) :=
  match Chomp.ofMark? c.head with
  | some chomp => (splitIncrement c.skip).map fun (increment, c) => (chomp, increment, c)
  | none => do
    let (increment, c) ← splitIncrement c
    match Chomp.ofMark? c.head with
    | some chomp => return (chomp, increment, c.skip)
    | none => return (.clip, increment, c)

/-- Passes over the indentation of a line, and over the empty lines before it. Answers their number,
and the deepest column on the way. -/
def skipIndent (indent : Option Nat) : (fuel : Nat) → (deepest : Nat) → Cursor → Nat × Nat × Cursor
  | 0, deepest, c => (0, deepest, c)
  | fuel + 1, deepest, c =>
    if c.head == some ' ' && indent.all (c.column < ·) then
      skipIndent indent fuel deepest c.skipBlank
    else
      let deepest := max deepest c.column
      if isBreak c.head then
        let (breaks, deepest, last) := skipIndent indent fuel deepest c.skipBreak
        (breaks + 1, deepest, last)
      else (0, deepest, c)

/-- What stands between the lines of a block: as it is, or folded if the lines around do not begin
with blanks. -/
def lineJoint (literal : Bool) ( isFirst begins : Bool) (empty : Nat) : List Char :=
  if !literal && !isFirst && begins then
    if empty = 0 then [' '] else List.replicate empty '\n'
  else List.replicate (if isFirst then empty else empty + 1) '\n'

/-- Splits off the lines of a block behind some empty ones. Answers also the line ends behind them:
none at the end of the document. -/
def splitLines (literal : Bool) (indent : Nat) :
    (fuel : Nat) → ( isFirst blankBefore : Bool) → (empty : Nat) → Cursor →
      List Char × Option Nat × Cursor
  | 0, _, _, _, c => ([], none, c)
  | fuel + 1, isFirst, blankBefore, empty, c =>
    if c.column ≠ indent ∨ c.head.isNone ∨ (indent = 0 ∧ c.isDocumentMark) then
      ([], if isFirst then none else some empty, c)
    else
      let blank := isBlank c.head
      let before := lineJoint literal isFirst (!blankBefore && !blank) empty
      let line := c.rest.takeWhile fun d => !isBreak (some d)
      let c := c.skipMany line.length
      if c.head.isNone then (before ++ line, none, c)
      else
        let c := c.skipBreak
        let (empty, _, c) := skipIndent (some indent) (c.rest.length + 1) 0 c
        let (text, breaks, last) := splitLines literal indent fuel false blank empty c
        (before ++ line ++ text, breaks, last)

/-- Splits off a block behind its mark. -/
def splitBlock (literal : Bool) (indent : Int) (c : Cursor) : Option (List Char × Cursor) := do
  let line := c.line
  let (chomp, increment, c) ← splitHeader c
  let (_, c) ← c.endLine
  if !endsLine c.head then none
  else
    let c := if isBreak c.head then c.skipBreak else c
    if c.head == some '\t' then none
    else
      let least := (indent + 1).toNat
      let given := if increment = 0 then none else some ((max indent 0).toNat + increment)
      let (empty, deepest, c) := skipIndent given (c.rest.length + 1) 0 c
      let column := given.getD (max deepest least)
      if c.head.isNone then
        if chomp = .strip ∨ c.line = line then return ([], c)
        else if chomp = .keep ∧ empty ≠ 0 then return (List.replicate empty '\n', c)
        else return (['\n'], c)
      else if c.column < column ∧ indent < c.column then none
      else
        let (text, breaks, c) := splitLines literal column (c.rest.length + 1) true false empty c
        let unended := if c.head.isNone && decide (max column 1 ≤ c.column) then ['\n'] else []
        let ends := if breaks.isSome then ['\n'] else []
        let more := List.replicate (breaks.getD 0) '\n'
        match chomp with
        | .strip => return (text, c)
        | .clip => return (text ++ ends ++ unended, c)
        | .keep => return (text ++ ends ++ unended ++ more, c)

end RobotControl.Yaml
