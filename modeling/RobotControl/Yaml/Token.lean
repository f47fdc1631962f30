/-!
Tokens of YAML documents, and places in them.

A `Cursor` is a place in a document: what is left of the text, and where that is. Lines end with a
line feed, a carriage return or both. The tests for characters here take what may be the next
character, since the end of a document ends whatever a line end ends.
-/

namespace RobotControl.Yaml

inductive Token where
  | documentStart
  | documentEnd
  /-- A directive; one for tags says what a handle stands for. -/
  | directive (handle replacement : List Char)
  | blockSequence
  | blockMapping
  | blockEnd
  | blockEntry
  | flowSequence
  | flowSequenceEnd
  | flowMapping
  | flowMappingEnd
  | flowEntry
  | key
  | value
  | anchor (name : List Char)
  | alias (name : List Char)
  | tag (handle suffix : List Char)
  | scalar ( isPlain : Bool) (text : List Char)
deriving DecidableEq

def isBreak (c : Option Char) : Bool :=
  c == some '\n' || c == some '\r'

def isBlank (c : Option Char) : Bool :=
  c == some ' ' || c == some '\t'

/-- A line ends here. -/
def endsLine (c : Option Char) : Bool :=
  c.isNone || isBreak c

/-- A word ends here. -/
def endsWord (c : Option Char) : Bool :=
  isBlank c || endsLine c

/-- A character with a meaning in collections that are written in brackets. -/
def isFlow (c : Option Char) : Bool :=
  c.any [',', '[', ']', '\x7b', '\x7d'].contains

/-- A place in a document. -/
structure Cursor where
  rest : List Char
  index : Nat := 0
  line : Nat := 0
  column : Nat := 0
  /-- Nothing but blanks stands before it on its line. -/
  leading : Bool := true

namespace Cursor

/-- The next character. -/
def head (c : Cursor) : Option Char :=
  c.rest.head?

/-- The character after a number of others. -/
def peek (c : Cursor) (count : Nat) : Option Char :=
  c.rest[count]?

/-- The place behind a blank. -/
def skipBlank (c : Cursor) : Cursor :=
  { c with rest := c.rest.drop 1, index := c.index + 1, column := c.column + 1 }

/-- The place behind a character that is no blank. -/
def skip (c : Cursor) : Cursor :=
  { c.skipBlank with leading := false }

/-- The place behind several characters that are no blanks. -/
def skipMany (count : Nat) (c : Cursor) : Cursor :=
  { c with
    rest := c.rest.drop count
    index := c.index + count
    column := c.column + count
    leading := false }

/-- The place at the beginning of the next line. -/
def skipBreak (c : Cursor) : Cursor :=
  let size := if c.rest.take 2 = ['\r', '\n'] then 2 else 1
  ⟨c.rest.drop size, c.index + size, c.line + 1, 0, true⟩

/-- A line begins here with the mark of the beginning or the end of a document. -/
def isDocumentMark (c : Cursor) : Bool :=
  c.column == 0 && (c.rest.take 3 == ['-', '-', '-'] || c.rest.take 3 == ['.', '.', '.']) &&
    endsWord (c.peek 3)

/-- The place behind characters that satisfy a test. -/
def skipWhile (test : Char → Bool) (c : Cursor) : Cursor :=
  c.skipMany (c.rest.takeWhile test).length

/-- Blanks that were passed over. -/
structure Gap where
  tabs : Bool := false
  spaces : Bool := false

/-- Passes over blanks and a comment, which needs a blank before it. -/
def skipToLineEnd : (fuel : Nat) → Gap → Cursor → Option (Gap × Cursor)
  | 0, gap, c => some (gap, c)
  | fuel + 1, gap, c =>
    if c.head == some ' ' then skipToLineEnd fuel { gap with spaces := true } c.skipBlank
    else if c.head == some '\t' then skipToLineEnd fuel { gap with tabs := true } c.skipBlank
    else if c.head == some '#' then
      if gap.tabs || gap.spaces then some (gap, c.skipWhile fun d => !isBreak (some d)) else none
    else some (gap, c)

/-- Passes over what may stand behind a token on its line. -/
def endLine (c : Cursor) : Option (Gap × Cursor) :=
  c.skipToLineEnd (c.rest.length + 1) {}

end Cursor

end RobotControl.Yaml
