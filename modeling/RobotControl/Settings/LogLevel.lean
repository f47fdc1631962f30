import RobotControl.Decimal.Literal
import RobotControl.Text.Pattern

/-!
Log levels.

What is logged is set by directives with commas between them; empty ones do not count. A directive
is a level, or the name of a part of the program, which may have a span in brackets and a level
behind an equals sign. In the span, braces may hold a field and a value that it has to match: a
number, a truth value or a pattern.

Blanks around a directive do not count for where its parts begin and end, but the level and the
field are cut from the text with the blanks. So a level behind an equals sign has no blanks around
it or its directive.
-/

namespace RobotControl.LogLevel

/-- The words for levels; they have numbers as well. -/
def levels : List String :=
  ["trace", "debug", "info", "warn", "error", "off"]

/-- The text is a level: a word in any case, or a number up to 5. -/
def isLevel (cs : List Char) : Bool :=
  (Decimal.readCount? cs).any (· ≤ 5) || levels.contains (String.ofList cs).toLower

/-- The text is a value that a field can be asked for. -/
def isValue (cs : List Char) : Bool :=
  (Decimal.read? cs).isSome || Text.isPattern cs

/-- The text asks for a field. What stands behind a second equals sign is ignored. -/
def isField (cs : List Char) : Bool :=
  !cs.isEmpty && match cs.dropWhile (· != '=') with
    | [] => true
    | _ :: rest => isValue (rest.takeWhile (· != '='))

/-- What is left after so many bytes, if a character ends there. -/
def dropBytes : (size : Nat) → List Char → Option (List Char)
  | 0, cs => some cs
  | _ + 1, [] => none
  | size + 1, c :: cs =>
    if c.utf8Size ≤ size + 1 then dropBytes (size + 1 - c.utf8Size) cs else none

/-- The first so many bytes, if a character ends there. -/
def takeBytes : (size : Nat) → List Char → Option (List Char)
  | 0, _ => some []
  | _ + 1, [] => none
  | size + 1, c :: cs =>
    if c.utf8Size ≤ size + 1 then (takeBytes (size + 1 - c.utf8Size) cs).map (c :: ·) else none

/-- A place in a directive. Where a level or a field is open, its first byte is kept. -/
inductive Place where
  | start
  /-- In a level, or in the name of a part of the program. -/
  | name
  | span
  | field (first : Nat)
  /-- Behind a field. -/
  | fields
  /-- Behind a span. -/
  | target
  | level (first : Nat)

/-- A character that a name can begin with. -/
def beginsName (c : Char) : Bool :=
  c == '_' || c == '-' || c == ':' || Text.isAlphanumeric c

namespace Place

/-- The place behind a character at a byte. Fields are cut from the whole text. -/
def next (text : List Char) (byte : Nat) (c : Char) : Place → Option Place
  | start => if c = '[' then some span else if beginsName c then some name else none
  | name => if c = '=' then some (level (byte + 1)) else if c = '[' then some span else some name
  | span =>
    if c = ']' then some target
    else if c = '\x7b' then some (field (byte + 1))
    else some span
  | field first =>
    if c = '\x7d' then
      match (dropBytes first text).bind (takeBytes (byte - first)) with
      | some cut => if isField cut then some fields else none
      | none => none
    else some (field first)
  | fields => if c = ']' then some target else none
  | target => if c = '=' then some (level (byte + 1)) else none
  | level first => some (level first)

/-- A directive may end here. A level that is left out stands for all of them. -/
def isEnd (text : List Char) : Place → Bool
  | name | target => true
  | level first => (dropBytes first text).any fun cut => cut.isEmpty || isLevel cut
  | start | span | field _ | fields => false

/-- The rest of a directive is in order. -/
def accepts (text : List Char) (place : Place) (byte : Nat) : List Char → Bool
  | [] => place.isEnd text
  | c :: cs => match place.next text byte c with
    | some place => accepts text place (byte + c.utf8Size) cs
    | none => false

end Place

def isDirective (cs : List Char) : Bool :=
  Place.start.accepts cs 0 (Text.trim cs)

/-- The text can be used as a log level. -/
def isValid (text : String) : Bool :=
  (text.splitOn ",").all fun part => part.isEmpty || isDirective part.toList

example : isDirective "info".toList ∧ isDirective "core=3".toList := by decide +kernel

example : ¬ isDirective "core=6".toList := by decide +kernel

example : isDirective "a[b]=".toList ∧ ¬ isDirective " a[b]=".toList := by decide +kernel

end RobotControl.LogLevel
