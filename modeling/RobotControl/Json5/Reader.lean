import RobotControl.Data.Basic
import RobotControl.Decimal.Literal
import RobotControl.Text.Hex
import RobotControl.Text.Letter

/-!
Reading JSON5 documents.

JSON5 is JSON with the conveniences of a language for people: comments, commas behind the last item,
names without quotes, single quotes, strings that go on in the next line, and numbers with a plus,
in hexadecimal, with a point at either end, or without bounds.

Whole numbers have 64 bits with a sign, hexadecimal ones 32 bits; what does not fit is refused, and
so is a number too large for doubles. All readers here split something off the beginning of a text
and answer it with the rest; they take at least one character each time around, so the length of the
text bounds their recursion.
-/

namespace RobotControl.Json5

/-! ### Between tokens -/

def isLineEnd (c : Char) : Bool :=
  c == '\n' || c == '\r' || c == '\u2028' || c == '\u2029'

/-- The characters that may stand between tokens. -/
def isSpace (c : Char) : Bool :=
  isLineEnd c || Text.inRanges [(0x09, 0x09), (0x0B, 0x0C), (0x20, 0x20), (0xA0, 0xA0),
    (0x1680, 0x1680), (0x2000, 0x200A), (0x202F, 0x202F), (0x205F, 0x205F), (0x3000, 0x3000),
    (0xFEFF, 0xFEFF)] c

/-- What is left after the end of a comment. -/
def endComment : List Char → Option (List Char)
  | [] => none
  | '*' :: '/' :: rest => some rest
  | _ :: rest => endComment rest

/-- What is left after spaces and comments. -/
def skipSpace : (fuel : Nat) → List Char → List Char
  | 0, cs => cs
  | fuel + 1, cs => match cs.dropWhile isSpace with
    | '/' :: '/' :: rest => skipSpace fuel (rest.dropWhile (!isLineEnd ·))
    | '/' :: '*' :: rest => match endComment rest with
      | some rest => skipSpace fuel rest
      | none => '/' :: '*' :: rest
    | rest => rest

def skip (cs : List Char) : List Char :=
  skipSpace (cs.length + 1) cs

/-! ### Strings and names -/

/-- The character that stands behind a backslash for another one. -/
def escaped (c : Char) : Char :=
  if c = 'b' then '\x08'
  else if c = 'f' then '\x0c'
  else if c = 'n' then '\n'
  else if c = 'r' then '\r'
  else if c = 't' then '\t'
  else if c = 'v' then '\x0b'
  else c

/-- Splits off the character named after `\u`. Characters beyond 16 bits are written as a pair of
units. -/
def splitNamed (cs : List Char) : Option (Char × List Char) := do
  let (unit, rest) ← Text.splitHex 4 cs
  match Text.charOfCode? unit, rest with
  | some c, _ => return (c, rest)
  | none, '\\' :: 'u' :: rest =>
    let (second, rest) ← Text.splitHex 4 rest
    if Text.isLeading unit && Text.isTrailing second then return (Text.pairChar unit second, rest)
    else none
  | none, _ => none

/-- Splits off what stands behind a backslash: a character, or none for the end of a line. -/
def splitEscape : List Char → Option (Option Char × List Char)
  | [] => none
  | '\r' :: '\n' :: rest => some (none, rest)
  | 'x' :: rest => (Text.splitCodePoint 2 rest).map fun (c, rest) => (some c, rest)
  | 'u' :: rest => (splitNamed rest).map fun (c, rest) => (some c, rest)
  | '0' :: rest => some (some '\x00', rest)
  | c :: rest =>
    if isLineEnd c then some (none, rest)
    else if c.isDigit then none
    else some (some (escaped c), rest)

/-- Splits off the rest of a string with its closing quote. -/
def splitString (quote : Char) : (fuel : Nat) → List Char → Option (List Char × List Char)
  | 0, _ => none
  | _ + 1, [] => none
  | fuel + 1, c :: cs =>
    if c = quote then some ([], cs)
    else if c = '\\' then do
      let (char, rest) ← splitEscape cs
      let (text, rest) ← splitString quote fuel rest
      return (char.toList ++ text, rest)
    else if isLineEnd c then none
    else do
      let (text, rest) ← splitString quote fuel cs
      return (c :: text, rest)

def beginsName (c : Char) : Bool :=
  Text.isLetter c || c == '$' || c == '_'

def inName (c : Char) : Bool :=
  beginsName c || Text.isMark c || Text.isDigit c || Text.inRanges [(0x200C, 0x200D),
    (0x203F, 0x2040), (0x2054, 0x2054), (0xFE33, 0xFE34), (0xFE4D, 0xFE4F), (0xFF3F, 0xFF3F)] c

/-- Splits off the characters of a name without quotes. -/
def splitName (test : Char → Bool) : (fuel : Nat) → List Char → Option (List Char × List Char)
  | 0, _ => none
  | fuel + 1, '\\' :: 'u' :: rest => do
    let (c, rest) ← splitNamed rest
    let (name, rest) ← splitName inName fuel rest
    return (c :: name, rest)
  | fuel + 1, c :: rest =>
    if test c then do
      let (name, rest) ← splitName inName fuel rest
      return (c :: name, rest)
    else some ([], c :: rest)
  | _ + 1, [] => some ([], [])

/-- Splits off the name of a member, in quotes or without them. -/
def splitKey : List Char → Option (List Char × List Char)
  | '"' :: rest => splitString '"' (rest.length + 1) rest
  | '\'' :: rest => splitString '\'' (rest.length + 1) rest
  | cs => do
    let (name, rest) ← splitName beginsName (cs.length + 1) cs
    if name.isEmpty then none else return (name, rest)

/-! ### Numbers -/

/-- Splits a word off the beginning of a text. -/
def splitWord (word : String) (cs : List Char) : Option (List Char) :=
  if word.toList.isPrefixOf cs then some (cs.drop word.length) else none

/-- The double of a literal, if it is finite. -/
def finite? (cs : List Char) : Option Data := do
  let x ← Decimal.read? cs
  if x.isFinite then return .float x else none

/-- Splits off an exponent, if there is one. -/
def splitExponent : List Char → List Char × List Char
  | mark :: rest =>
    let sign := rest.takeWhile (fun c => c == '+' || c == '-') |>.take 1
    let digits := (rest.drop sign.length).takeWhile Char.isDigit
    if (mark == 'e' || mark == 'E') && !digits.isEmpty then
      (mark :: sign ++ digits, rest.drop (sign.length + digits.length))
    else ([], mark :: rest)
  | [] => ([], [])

/-- Splits off a decimal number. Zero stands alone before a point. -/
def splitDecimal (sign cs : List Char) : Option (Data × List Char) := do
  let digits := cs.takeWhile Char.isDigit
  let whole := if digits.head? == some '0' then ['0'] else digits
  let rest := cs.drop whole.length
  match rest with
  | '.' :: rest =>
    let fraction := rest.takeWhile Char.isDigit
    if whole.isEmpty && fraction.isEmpty then none
    else
      let (exponent, rest) := splitExponent (rest.drop fraction.length)
      return (← finite? (sign ++ whole ++ '.' :: fraction ++ exponent), rest)
  | rest =>
    if whole.isEmpty then none
    else match splitExponent rest with
      | ([], rest) =>
        let n ← (Decimal.readInteger? (sign ++ whole)).filter Data.isWord
        return (.integer n, rest)
      | (exponent, rest) => return (← finite? (sign ++ whole ++ exponent), rest)

/-- Splits off a number. A hexadecimal one has no sign, and only a minus stands before infinity and
what is no number. -/
def splitNumber (cs : List Char) : Option (Data × List Char) := do
  let sign := cs.takeWhile (fun c => c == '+' || c == '-') |>.take 1
  let body := cs.drop sign.length
  let infinity : Float := 1.0 / 0.0
  match body with
  | 'I' :: _ =>
    let rest ← splitWord "Infinity" body
    if sign = ['+'] then none
    else return (.float (if sign.isEmpty then infinity else -infinity), rest)
  | 'N' :: _ =>
    let rest ← splitWord "NaN" body
    if sign = ['+'] then none else return (.float (0.0 / 0.0), rest)
  | '0' :: mark :: rest =>
    let digits := rest.takeWhile fun c => (Text.hexValue? c).isSome
    if (mark == 'x' || mark == 'X') && !digits.isEmpty then
      let (n, rest) ← Text.splitHex digits.length rest
      if sign.isEmpty && n < UInt32.size then return (.integer n, rest) else none
    else splitDecimal sign body
  | _ => splitDecimal sign body

/-! ### Values -/

mutual

/-- Splits off a value, space before it included. -/
def splitValue : (fuel : Nat) → List Char → Option (Data × List Char)
  | 0, _ => none
  | fuel + 1, cs => match skip cs with
    | '"' :: rest => (splitString '"' (rest.length + 1) rest).map fun (text, rest) =>
        (.text (String.ofList text), rest)
    | '\'' :: rest => (splitString '\'' (rest.length + 1) rest).map fun (text, rest) =>
        (.text (String.ofList text), rest)
    | '[' :: rest => (splitItems fuel rest).map fun (items, rest) => (.list items, rest)
    | '{' :: rest => (splitMembers fuel rest).map fun (members, rest) =>
        (.table (Data.ofRepeated members), rest)
    | 'n' :: rest => (splitWord "ull" rest).map fun rest => (.nothing, rest)
    | 't' :: rest => (splitWord "rue" rest).map fun rest => (.boolean true, rest)
    | 'f' :: rest => (splitWord "alse" rest).map fun rest => (.boolean false, rest)
    | rest => splitNumber rest

/-- Splits off the items of an array and its closing bracket. -/
def splitItems : (fuel : Nat) → List Char → Option (List Data × List Char)
  | 0, _ => none
  | fuel + 1, cs => match skip cs with
    | ']' :: rest => some ([], rest)
    | rest => do
      let (item, rest) ← splitValue fuel rest
      match skip rest with
      | ',' :: rest =>
        let (items, rest) ← splitItems fuel rest
        return (item :: items, rest)
      | ']' :: rest => return ([item], rest)
      | _ => none

/-- Splits off the members of an object and its closing brace. -/
def splitMembers : (fuel : Nat) → List Char → Option (List (String × Data) × List Char)
  | 0, _ => none
  | fuel + 1, cs => match skip cs with
    | '}' :: rest => some ([], rest)
    | rest => do
      let (name, rest) ← splitKey rest
      match skip rest with
      | ':' :: rest =>
        let (v, rest) ← splitValue fuel rest
        match skip rest with
        | ',' :: rest =>
          let (members, rest) ← splitMembers fuel rest
          return ((String.ofList name, v) :: members, rest)
        | '}' :: rest => return ([(String.ofList name, v)], rest)
        | _ => none
      | _ => none

end

/-- Reads a document. Only an object is a table. -/
def read? (text : String) : Option (List (String × Data)) :=
  let cs := text.toList
  match splitValue (2 * cs.length + 2) cs with
  | some (.table entries, rest) => if (skip rest).isEmpty then some entries else none
  | _ => none

end RobotControl.Json5
