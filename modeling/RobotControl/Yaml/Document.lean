import RobotControl.Yaml.Scanner

/-!
Reading YAML documents.

A text holds at most one document here, and none is an empty table. Plain scalars are numbers, truth
values or null if they look like it; a tag can ask for one of these, and any other tag makes a text
of a scalar. Nodes can be given names and put in again by them. The names in a mapping are texts or
whole numbers, and each stands once.
-/

namespace RobotControl.Yaml

/-! ### Scalars -/

/-- Reads a whole number that 64 bits with a sign hold. -/
def word? (cs : List Char) : Option Int :=
  (Decimal.readInteger? cs).filter Data.isWord

/-- Reads digits of another base. -/
def based? (base : Nat) (cs : List Char) : Option Int := do
  let (negative, digits) := Decimal.splitSign cs
  if digits.isEmpty then none
  else
    let values ← digits.mapM fun c => (Text.hexValue? c).filter (· < base)
    let size := values.foldl (fun n d => base * n + d) 0
    let n : Int := if negative then -size else size
    if Data.isWord n then return n else none

/-- Reads a whole number. -/
def integer? (cs : List Char) : Option Int :=
  let marked := match cs with
    | '0' :: 'x' :: rest => based? 16 rest
    | '0' :: 'o' :: rest => based? 8 rest
    | '+' :: rest => word? rest
    | _ => none
  marked <|> word? cs

/-- The words for numbers that no digits write. -/
def floatWords : List String :=
  [".inf", ".Inf", ".INF", "+.inf", "+.Inf", "+.INF", "-.inf", "-.Inf", "-.INF", ".nan", "NaN",
    ".NAN"]

/-- The text of a scalar looks like a float. -/
def isFloat (cs : List Char) : Bool :=
  floatWords.contains (String.ofList cs) || (cs.any Char.isDigit && (Decimal.read? cs).isSome)

/-- The truth value that a word stands for. -/
def boolean? (cs : List Char) : Option Bool :=
  if cs = "true".toList then some true else if cs = "false".toList then some false else none

def isNull (cs : List Char) : Bool :=
  cs = ['~'] || cs = "null".toList

/-- What a plain scalar without a tag stands for. A float that has no value among decimal texts is
refused. -/
def plainData? (cs : List Char) : Option Data :=
  if isNull cs then some .nothing
  else match integer? cs, boolean? cs with
    | some n, _ => some (.integer n)
    | none, some value => some (.boolean value)
    | none, none =>
      if isFloat cs then (Decimal.read? cs).map .float else some (.text (String.ofList cs))

/-- What the handle of tags for basic types stands for. -/
def basicTags : List Char :=
  "tag:yaml.org,2002:".toList

/-- What a plain scalar with a tag stands for: nothing, if it is not of the type of the tag. -/
def taggedData? (handle suffix cs : List Char) : Option Data :=
  if handle ≠ basicTags then some (.text (String.ofList cs))
  else match String.ofList suffix with
    | "bool" => some ((boolean? cs).elim .nothing .boolean)
    | "int" => some ((word? cs).elim .nothing .integer)
    | "float" => if isFloat cs then (Decimal.read? cs).map .float else some .nothing
    | "null" => some .nothing
    | _ => some (.text (String.ofList cs))

/-! ### Nodes -/

/-- A place between tokens, with what the names of nodes and the handles of tags stand for. -/
structure Place where
  tokens : List Token
  anchors : List (List Char × Data) := []
  handles : List (List Char × List Char) := [(['!', '!'], basicTags)]

/-- Readers move to another place, or fail. -/
abbrev Reading := StateT Place Option

def next? : Reading (Option Token) := do
  return (← get).tokens.head?

/-- Moves behind a token. -/
def advance : Reading Unit :=
  modify fun p => { p with tokens := p.tokens.drop 1 }

/-- Moves behind a token if it is the next one. -/
def accept (t : Token) : Reading Bool := do
  if (← next?) = some t then
    advance
    return true
  else return false

def name (anchor : List Char) (v : Data) : Reading Unit :=
  modify fun p => { p with anchors := (anchor, v) :: p.anchors }

def lookup {α : Type} (names : List (List Char × α)) (name : List Char) : Option α :=
  (names.find? fun entry => entry.1 == name).map (·.2)

/-- What a handle stands for. A handle between two marks has to be declared. -/
def resolveHandle (handle : List Char) : Reading (List Char) := do
  match lookup (← get).handles handle with
  | some replacement => return replacement
  | none => if handle.length < 2 then return handle else failure

/-- What stands before a node: its name and its tag, in either order. -/
structure Properties where
  anchor : Option (List Char) := none
  tag : Option (List Char × List Char) := none

/-- Reads the name of a node, which stands for nothing until the node is complete. -/
def readAnchor (p : Properties) : Reading Properties := do
  match ← next? with
  | some (.anchor anchor) =>
    advance
    name anchor .nothing
    return { p with anchor := some anchor }
  | _ => return p

def readTag (p : Properties) : Reading Properties := do
  match ← next? with
  | some (.tag handle suffix) =>
    advance
    return { p with tag := some (← resolveHandle handle, suffix) }
  | _ => return p

def readProperties : Reading Properties := do
  match ← next? with
  | some (.tag _ _) => readTag {} >>= readAnchor
  | _ => readAnchor {} >>= readTag

/-- The name of an entry, and whether it was a number. -/
def entryName? : Data → Option (String × Bool)
  | .text s => some (s, false)
  | .integer n => some (toString n, true)
  | _ => none

/-- The table of pairs of names and values. -/
def tableOf? (pairs : List (Data × Data)) : Option Data := do
  let names ← pairs.mapM fun pair => entryName? pair.1
  if names.eraseDups.length = names.length then
    return .table (Data.ofRepeated ((names.map (·.1)).zip (pairs.map (·.2))))
  else none

/-- What may stand where a node is missing. -/
inductive Missing where
  | blockKey
  | blockItem
  | bareItem
  | flowKey
  | flowValue
  | pairKey
  | pairValue

/-- A token shows that a node is missing before it. -/
def Missing.before : Missing → Option Token → Bool
  | blockKey, t => [some .key, some .value, some .blockEnd].contains t
  | blockItem, t => [some .blockEntry, some .blockEnd].contains t
  | bareItem, t => [some .blockEntry, some .key, some .value, some .blockEnd].contains t
  | flowKey, t => [some .value, some .flowEntry, some .flowMappingEnd].contains t
  | flowValue, t => [some .flowEntry, some .flowMappingEnd].contains t
  | pairKey, t => [some .value, some .flowEntry, some .flowSequenceEnd].contains t
  | pairValue, t => [some .flowEntry, some .flowSequenceEnd].contains t

mutual

/-- Reads a node. Blocks, and sequences that are not indented, are only read where they are allowed.
Every two calls of the readers take a token, or end. -/
def readNode : (fuel : Nat) → (block bare : Bool) → Reading Data
  | 0, _, _ => failure
  | fuel + 1, block, bare => do
    match ← next? with
    | some (.alias anchor) =>
      advance
      lookup (← get).anchors anchor
    | _ =>
      let p ← readProperties
      let v ← readContent fuel block bare p
      match p.anchor with
      | some anchor => name anchor v
      | none => pure ()
      return v

/-- Reads a node behind its properties, which may also stand for an empty scalar. -/
def readContent : (fuel : Nat) → (block bare : Bool) → Properties → Reading Data
  | 0, _, _, _ => failure
  | fuel + 1, block, bare, p => do
    match ← next? with
    | some (.scalar isPlain text) =>
      advance
      match isPlain, p.tag with
      | true, some (handle, suffix) => taggedData? handle suffix text
      | true, none => plainData? text
      | false, _ => return .text (String.ofList text)
    | some .flowSequence =>
      advance
      return .list (← readFlowItems fuel true)
    | some .flowMapping =>
      advance
      let pairs ← readFlowPairs fuel true
      tableOf? pairs
    | some .blockSequence =>
      if block then
        advance
        return .list (← readBlockItems fuel)
      else failure
    | some .blockMapping =>
      if block then
        advance
        let pairs ← readBlockPairs fuel
        tableOf? pairs
      else failure
    | t =>
      if bare && t == some .blockEntry then return .list (← readBareItems fuel)
      else match p.anchor, p.tag with
        | none, none => failure
        | _, some (handle, suffix) => taggedData? handle suffix []
        | some _, none => return .text ""

/-- Reads a node, or null where it is missing. -/
def readOptional : (fuel : Nat) → Missing → (block bare : Bool) → Reading Data
  | 0, _, _, _ => failure
  | fuel + 1, missing, block, bare => do
    if missing.before (← next?) then return .nothing else readNode fuel block bare

/-- Reads the items of a sequence in a block. -/
def readBlockItems : (fuel : Nat) → Reading (List Data)
  | 0 => failure
  | fuel + 1 => do
    if ← accept .blockEnd then return []
    else if ← accept .blockEntry then
      let item ← readOptional fuel .blockItem true false
      return item :: (← readBlockItems fuel)
    else failure

/-- Reads the items of a sequence that is not indented. -/
def readBareItems : (fuel : Nat) → Reading (List Data)
  | 0 => failure
  | fuel + 1 => do
    if ← accept .blockEntry then
      let item ← readOptional fuel .bareItem true false
      return item :: (← readBareItems fuel)
    else return []

/-- Reads the entries of a mapping in a block. -/
def readBlockPairs : (fuel : Nat) → Reading (List (Data × Data))
  | 0 => failure
  | fuel + 1 => do
    if ← accept .blockEnd then return []
    else
      let hasKey ← accept .key
      if !hasKey && (← next?) ≠ some .value then failure
      else
        let key ← if hasKey then readOptional fuel .blockKey true true else pure .nothing
        let hasValue ← accept .value
        let v ← if hasValue then readOptional fuel .blockKey true true else pure .nothing
        return (key, v) :: (← readBlockPairs fuel)

/-- Reads the items of a sequence in brackets. An item may be a mapping of one entry. -/
def readFlowItems : (fuel : Nat) → ( isFirst : Bool) → Reading (List Data)
  | 0, _ => failure
  | fuel + 1, isFirst => do
    if ← accept .flowSequenceEnd then return []
    else
      let follows ← if isFirst then pure true else accept .flowEntry
      if !follows then failure
      else if ← accept .flowSequenceEnd then return []
      else if ← accept .key then
        let key ← readOptional fuel .pairKey false false
        let hasValue ← accept .value
        let v ← if hasValue then readOptional fuel .pairValue false false else pure .nothing
        let item ← (tableOf? [(key, v)] : Option Data)
        return item :: (← readFlowItems fuel false)
      else
        let item ← readNode fuel false false
        return item :: (← readFlowItems fuel false)

/-- Reads the entries of a mapping in brackets. -/
def readFlowPairs : (fuel : Nat) → ( isFirst : Bool) → Reading (List (Data × Data))
  | 0, _ => failure
  | fuel + 1, isFirst => do
    if ← accept .flowMappingEnd then return []
    else
      let follows ← if isFirst then pure true else accept .flowEntry
      if !follows then failure
      else if ← accept .flowMappingEnd then return []
      else
        let hasKey ← accept .key
        let hasNode := hasKey || (← next?) ≠ some .value
        let key ← if hasNode then readOptional fuel .flowKey false false else pure .nothing
        let hasValue ← if hasKey || !hasNode then accept .value else pure false
        let v ← if hasValue then readOptional fuel .flowValue false false else pure .nothing
        return (key, v) :: (← readFlowPairs fuel false)

end

/-! ### Documents -/

/-- Passes over marks of the end of documents. -/
def skipDocumentEnds : List Token → List Token
  | .documentEnd :: tokens => skipDocumentEnds tokens
  | tokens => tokens

/-- Splits off directives. Answers what handles they replace. -/
def splitDirectives : List Token → List (List Char × List Char) × List Token
  | .directive handle replacement :: tokens =>
    let (handles, tokens) := splitDirectives tokens
    (handles ++ [(handle, replacement)], tokens)
  | tokens => ([], tokens)

/-- Reads the content of a document, which can be empty behind the mark of its beginning. -/
def readRoot (marked : Bool) (fuel : Nat) : Reading Data := do
  match marked, ← next? with
  | true, none | true, some .documentEnd | true, some .documentStart
  | true, some (.directive _ _) =>
    return .nothing
  | _, _ => readNode fuel true false

/-- Reads a text. What holds no table is refused. -/
def read? (text : String) : Option (List (String × Data)) := do
  match skipDocumentEnds (← tokens? text) with
  | [] => return []
  | tokens =>
    let (handles, tokens) := splitDirectives tokens
    let start : Place := { tokens }
    let marked := tokens.head? = some .documentStart
    if !marked && !handles.isEmpty then none
    else
      let place := { start with
        tokens := if marked then tokens.drop 1 else tokens
        handles := handles ++ start.handles }
      let (v, last) ← readRoot marked (4 * tokens.length + 4) place
      match skipDocumentEnds last.tokens, v with
      | [], .table entries => return entries
      | _, _ => none

end RobotControl.Yaml
