import RobotControl.Yaml.Scalar

/-!
The tokens of a YAML document.

Collections in blocks are told by their columns. A `Scanner` keeps the columns of the open ones, and
for every open collection in brackets, and for the blocks around all of them, whether the last node
may still turn out to be a key: only the colon behind it tells, and then the tokens for the key, and
for a mapping that begins with it, are put in front of the node.
-/

namespace RobotControl.Yaml

/-- A node that may turn out to be a key. -/
structure KeyCandidate where
  possible : Bool := false
  /-- Nothing but a key can stand there. -/
  required : Bool := false
  /-- The number of tokens before it. -/
  number : Nat := 0
  index : Nat := 0
  line : Nat := 0
  column : Nat := 0

/-- An open block, or the place behind a mark that may begin one. -/
structure Level where
  /-- The column of the block around. -/
  outer : Int
  isBlock : Bool

structure Scanner where
  cursor : Cursor
  /-- The column of the innermost block, or -1. -/
  indent : Int := -1
  levels : List Level := []
  /-- A key may begin here. -/
  keyAllowed : Bool := true
  candidate : KeyCandidate := {}
  /-- The candidates around open brackets. -/
  outerCandidates : List KeyCandidate := []
  /-- The place behind a quoted key, where a colon needs no blank. -/
  adjacent : Option Nat := none
  tokens : Array Token := #[]

namespace Scanner

def inFlow (s : Scanner) : Bool :=
  !s.outerCandidates.isEmpty

def push (s : Scanner) (t : Token) : Scanner :=
  { s with tokens := s.tokens.push t }

/-- Puts a token behind a number of others. -/
def insert (s : Scanner) (number : Nat) (t : Token) : Scanner :=
  let before := s.tokens.toList.take number
  let after := s.tokens.toList.drop number
  { s with tokens := (before ++ t :: after).toArray }

def move (s : Scanner) (c : Cursor) : Scanner :=
  { s with cursor := c }

/-! ### Blocks -/

/-- Forgets a place that did not begin a block. -/
def dropPlaces (s : Scanner) : Scanner :=
  match s.levels with
  | level :: levels =>
    if level.isBlock then s else { s with indent := level.outer, levels }
  | [] => s

/-- Begins a block at a column, unless it has begun already. Its first token stands behind a number
of others. -/
def openBlock (s : Scanner) (column number : Nat) (t : Token) : Scanner :=
  if s.inFlow then s
  else
    let s := if decide (s.indent ≤ column) then s.dropPlaces else s
    if decide (s.indent < column) then
      let level : Level := ⟨s.indent, true⟩
      { s.insert number t with levels := level :: s.levels, indent := column }
    else s

/-- Ends the blocks to the right of a column. -/
def closeBlocks (s : Scanner) (column : Int) : Scanner :=
  if s.inFlow then s else go s.levels s
where
  go : List Level → Scanner → Scanner
    | [], s => s
    | level :: levels, s =>
      if decide (column < s.indent) then
        let closed := { s with indent := level.outer, levels }
        go levels (if level.isBlock then closed.push .blockEnd else closed)
      else s

/-- Marks the place behind a token as one that lies further right than its block. -/
def openPlace (s : Scanner) : Scanner :=
  if !s.inFlow && s.levels.head?.any Level.isBlock then
    { s with levels := ⟨s.indent, false⟩ :: s.levels, indent := s.indent + 1 }
  else s

/-! ### Keys -/

/-- Remembers that the next node may be a key. -/
def saveCandidate (s : Scanner) : Scanner :=
  if s.keyAllowed then
    let c := s.cursor
    let required := !s.inFlow && decide (s.indent = c.column) && s.levels.head?.any Level.isBlock
    { s with candidate := ⟨true, required, s.tokens.size, c.index, c.line, c.column⟩ }
  else s

/-- Forgets the candidate, which must not be one that has to be a key. -/
def removeCandidate (s : Scanner) : Option Scanner :=
  if s.candidate.possible && s.candidate.required then none
  else some { s with candidate := { s.candidate with possible := false } }

/-- The most characters of a key without a mark. -/
def keyLimit : Nat := 1024

/-- Forgets candidates that are too far away. A key in a block does not run over lines. -/
def removeStale (s : Scanner) : Option Scanner :=
  let k := s.candidate
  let c := s.cursor
  if k.possible && !s.inFlow && (decide (k.line < c.line) || decide (k.index + keyLimit < c.index))
  then s.removeCandidate
  else some s

/-! ### Between tokens -/

/-- Passes over blanks, line ends and comments. A tab is no indentation. -/
def skipToToken : (fuel : Nat) → Scanner → Option Scanner
  | 0, s => some s
  | fuel + 1, s =>
    let c := s.cursor
    if isBreak c.head then
      skipToToken fuel { s with cursor := c.skipBreak, keyAllowed := s.keyAllowed || !s.inFlow }
    else if c.head == some '\t' && !s.levels.isEmpty && c.leading &&
        decide (c.column < s.indent) then
      do
        let (_, c) ← c.endLine
        if endsLine c.head then skipToToken fuel (s.move c) else none
    else if isBlank c.head then skipToToken fuel (s.move c.skipBlank)
    else if c.head == some '#' then
      skipToToken fuel (s.move { c.skipWhile fun d => !isBreak (some d) with leading := c.leading })
    else some s

/-- Passes over what may stand behind a token on its line. -/
def endLine (s : Scanner) : Option Scanner :=
  s.cursor.endLine.map fun (_, c) => s.move c

/-! ### Tokens -/

/-- A mark of the beginning or the end of a document. -/
def scanDocumentMark (s : Scanner) : Option Scanner := do
  let t : Token := if s.cursor.head == some '-' then .documentStart else .documentEnd
  let s ← (s.closeBlocks (-1)).removeCandidate
  let s := { s with keyAllowed := false, cursor := s.cursor.skipMany 3 }.push t
  if t = .documentStart then return s
  else
    let s ← s.endLine
    if endsLine s.cursor.head then return s else none

/-- A character of a handle. -/
def inHandle (c : Char) : Bool :=
  c.isAlphanum || c == '_' || c == '-'

/-- A character of a tag. -/
def inTag (c : Char) : Bool :=
  inHandle c || "#;/?:@&=+$.~*'()%".toList.contains c

/-- A directive for tags replaces a handle; all others are ignored. -/
def scanDirective (s : Scanner) : Option Scanner := do
  let s ← (s.closeBlocks (-1)).removeCandidate
  let line := s.cursor.rest.takeWhile fun d => !isBreak (some d)
  let words := ((String.ofList line).splitToList fun d => d == ' ' || d == '\t').filter (· != "")
  let t : Token := match words with
    | ["%TAG", handle, replacement] => .directive handle.toList replacement.toList
    | _ => .directive [] []
  return { s with keyAllowed := false, cursor := s.cursor.skipMany line.length }.push t

/-- The most brackets that may be open. -/
def flowLimit : Nat := 255

/-- An opening bracket. -/
def scanFlowStart (t : Token) (s : Scanner) : Option Scanner :=
  if flowLimit ≤ s.outerCandidates.length then none
  else
    let s := s.saveCandidate.openPlace
    { s with
      candidate := {}
      outerCandidates := s.candidate :: s.outerCandidates
      keyAllowed := true
      cursor := s.cursor.skip }.push t |>.endLine

/-- A closing bracket. -/
def scanFlowEnd (t : Token) (s : Scanner) : Option Scanner := do
  let s ← s.removeCandidate
  let s := match s.outerCandidates with
    | candidate :: outer => { s with candidate, outerCandidates := outer }
    | [] => s
  let s ← ({ s with keyAllowed := false, cursor := s.cursor.skip }.push t).endLine
  return { s with adjacent := if s.inFlow then some s.cursor.index else s.adjacent }

/-- A comma between brackets. -/
def scanFlowEntry (s : Scanner) : Option Scanner := do
  let s ← s.removeCandidate
  ({ s with keyAllowed := true, cursor := s.cursor.skip }.push .flowEntry).endLine

/-- The mark of an item in a block. -/
def scanBlockEntry (s : Scanner) : Option Scanner := do
  if s.inFlow || !s.keyAllowed then none
  else
    let column := s.cursor.column
    let s := (s.move s.cursor.skip).openBlock column s.tokens.size .blockSequence
    let (gap, c) ← s.cursor.endLine
    if gap.tabs && c.head == some '-' && endsWord (c.peek 1) then none
    else
      let s := s.move c
      let s := if isBreak c.head || isFlow c.head then s.openPlace else s
      let s ← s.removeCandidate
      return { s with keyAllowed := true }.push .blockEntry

/-- The mark of a key. -/
def scanKey (s : Scanner) : Option Scanner := do
  if !s.inFlow && !s.keyAllowed then none
  else
    let s := s.openBlock s.cursor.column s.tokens.size .blockMapping
    let s ← s.removeCandidate
    let c := s.cursor.skip
    if (c.rest.dropWhile (· == ' ')).head? == some '\t' then none
    else return { s with keyAllowed := !s.inFlow, cursor := c }.push .key

/-- The colon between a key and its value. If the last node may be a key, it is one. -/
def scanValue (s : Scanner) : Option Scanner := do
  let column := s.cursor.column
  let c := s.cursor.skip
  let c ← if c.head == some '\t' then do
      let (gap, c) ← c.endLine
      if !gap.spaces && c.head.any fun d => inHandle d then none else some c
    else some c
  let s := s.move c
  let k := s.candidate
  if k.possible then
    let s := (s.insert k.number .key).openBlock k.column k.number .blockMapping
    return { s.openPlace with candidate := { k with possible := false }, keyAllowed := false }.push
      .value
  else if !s.inFlow && !s.keyAllowed then none
  else
    let s := (s.openBlock column s.tokens.size .blockMapping).openPlace
    return { s with keyAllowed := !s.inFlow }.push .value

/-- A name for a node, or a node by its name. -/
def scanAnchor (s : Scanner) : Option Scanner :=
  let s := { s.saveCandidate with keyAllowed := false }
  let c := s.cursor.skip
  let name := c.rest.takeWhile fun d => !endsWord (some d) && !isFlow (some d) && d != '\uFEFF'
  let t : Token := if s.cursor.head == some '*' then .alias name else .anchor name
  if name.isEmpty then none else some ((s.move (c.skipMany name.length)).push t)

/-- A tag. -/
def scanTag (s : Scanner) : Option Scanner := do
  let s := { s.saveCandidate with keyAllowed := false }
  let cs := s.cursor.rest.drop 1
  let (t, rest) ← match cs with
    | '<' :: cs => match cs.dropWhile (· != '>') with
      | '>' :: rest => some (Token.tag [] (cs.takeWhile (· != '>')), rest)
      | _ => none
    | _ =>
      let word := cs.takeWhile inHandle
      match cs.dropWhile inHandle with
      | '!' :: rest =>
        let suffix := rest.takeWhile inTag
        if suffix.isEmpty then none
        else some (.tag ('!' :: word ++ ['!']) suffix, rest.drop suffix.length)
      | rest =>
        let suffix := word ++ rest.takeWhile inTag
        let rest := rest.dropWhile inTag
        some (if suffix.isEmpty then .tag [] ['!'] else .tag ['!'] suffix, rest)
  let c := s.cursor.skipMany (s.cursor.rest.length - rest.length)
  if endsWord c.head || (s.inFlow && isFlow c.head) then return (s.move c).push t else none

/-- A block of lines. -/
def scanBlockScalar (literal : Bool) (s : Scanner) : Option Scanner := do
  let s := { s.saveCandidate with keyAllowed := true }.dropPlaces
  let (text, c) ← splitBlock literal s.indent s.cursor.skip
  return (s.move c).push (.scalar false text)

/-- A quoted scalar. Only what belongs behind one may follow it on its line. -/
def scanQuoted (quote : Char) (s : Scanner) : Option Scanner := do
  let s := { s.saveCandidate with keyAllowed := false }
  let line := s.cursor.line
  let c := s.cursor.skip
  let (text, c) ← splitQuoted quote s.indent (c.rest.length + 1) c
  let (_, c) ← c.endLine
  let follows := match c.head with
    | none => true
    | some d =>
      isBreak (some d) || (s.inFlow && (d == ',' || d == '\x7d' || d == ']')) ||
        (d == ':' && (s.inFlow || c.line == line))
  if follows then
    let s ← skipToToken (c.rest.length + 1) (s.move c)
    return { s with adjacent := some s.cursor.index }.push (.scalar false text)
  else none

/-- A plain scalar. -/
def scanPlain (s : Scanner) : Option Scanner := do
  let s := { s.saveCandidate with keyAllowed := false }.dropPlaces
  if s.inFlow && decide ((s.cursor.column : Int) < s.indent + 1) then none
  else
    let (text, c) ← splitPlain s.inFlow s.indent (s.cursor.rest.length + 1) s.cursor
    if text.isEmpty then none
    else return { s with cursor := c, keyAllowed := c.leading }.push (.scalar true text)

/-- The next token, by its first characters. -/
def scanToken (s : Scanner) : Option Scanner :=
  let c := s.cursor
  let next := c.peek 1
  if c.isDocumentMark then s.scanDocumentMark
  else if c.column == 0 && c.head == some '%' then s.scanDirective
  else if decide (c.column < s.indent) then none
  else match c.head with
    | none => some s
    | some d =>
      if d = '[' then s.scanFlowStart .flowSequence
      else if d = '\x7b' then s.scanFlowStart .flowMapping
      else if d = ']' then s.scanFlowEnd .flowSequenceEnd
      else if d = '\x7d' then s.scanFlowEnd .flowMappingEnd
      else if d = ',' then s.scanFlowEntry
      else if d = '-' ∧ endsWord next then s.scanBlockEntry
      else if d = '?' ∧ endsWord next then s.scanKey
      else if d = ':' ∧ (endsWord next ∨
          (s.inFlow ∧ (isFlow next ∨ s.adjacent = some c.index))) then s.scanValue
      else if d = '*' ∨ d = '&' then s.scanAnchor
      else if d = '!' then s.scanTag
      else if (d = '|' ∨ d = '>') ∧ !s.inFlow then s.scanBlockScalar (d == '|')
      else if d = '\'' ∨ d = '"' then s.scanQuoted d
      else if d = '%' ∨ d = '@' ∨ d = '\x60' then none
      else s.scanPlain

/-- The tokens to the end of the text. Every step takes at least one character, so the length of the
text bounds their number. -/
def scanAll : (fuel : Nat) → Scanner → Option (List Token)
  | 0, _ => none
  | fuel + 1, s => do
    let s ← skipToToken (s.cursor.rest.length + 1) s
    let s ← s.removeStale
    if s.cursor.rest.isEmpty then
      let s ← s.removeCandidate
      return (s.closeBlocks (-1)).tokens.toList
    else scanAll fuel (← (s.closeBlocks s.cursor.column).scanToken)

end Scanner

/-- The tokens of a text. A null character ends it. -/
def tokens? (text : String) : Option (List Token) :=
  let cs := text.toList.takeWhile (· != '\x00')
  Scanner.scanAll (cs.length + 1) { cursor := { rest := cs } }

end RobotControl.Yaml
