import RobotControl.Environment.Basic
import RobotControl.Text.Blank
import RobotControl.Text.Letter

/-!
Files of assignments.

Such a file supplies environment variables, one `NAME=value` to a line. A line may begin with
`export`, and `#` after a blank begins a comment. Values may be written in single quotes, where
every character stands for itself, or in double quotes; outside of single quotes a backslash escapes
and a dollar sign puts in the value of another variable. A line goes on below for as long as a quote
is open.

`Environment.extend` carries the lines out one after another. It supplies what is not set yet, and
stops at the first line that is no assignment.
-/

namespace RobotControl

/-! ### Lines -/

namespace Assignments

/-- What is open at a place in a line. -/
inductive Scan where
  | nothing
  /-- The character before was a blank. -/
  | gap
  | escape
  | double
  | doubleEscape
  | single
  | singleEscape
deriving DecidableEq

namespace Scan

/-- What a character opens where nothing was open. -/
def opening (c : Char) : Option Scan :=
  if c = '\\' then some .escape
  else if c = '"' then some .double
  else if c = '\'' then some .single
  else none

/-- What is open after one more character. Only the first of several blanks makes a gap. -/
def next : Scan → Char → Scan
  | .nothing, c =>
    (opening c).getD (if Text.isBlank c && c != '\n' && c != '\r' then .gap else .nothing)
  | .gap, c => (opening c).getD .nothing
  | .escape, _ => .nothing
  | .double, c => if c = '\\' then .doubleEscape else if c = '"' then .nothing else .double
  | .doubleEscape, _ => .double
  | .single, c => if c = '\\' then .singleEscape else if c = '\'' then .nothing else .single
  | .singleEscape, _ => .single

/-- Follows a text. Answers the part before a comment, and what is open at its end. -/
def follow : Scan → List Char → List Char × Scan
  | scan, [] => ([], scan)
  | scan, c :: cs =>
    if scan = .gap ∧ c = '#' then ([], .nothing)
    else
      let (text, last) := follow (scan.next c) cs
      (c :: text, last)

end Scan

/-- The lines of a text, each with its line end. -/
def splitLines : List Char → List (List Char)
  | [] => []
  | c :: cs =>
    if c = '\n' then [c] :: splitLines cs
    else match splitLines cs with
      | [] => [[c]]
      | line :: lines => (c :: line) :: lines

/-- The text is a comment. -/
def isComment (cs : List Char) : Bool :=
  (Text.skipBlanks cs).head? == some '#'

/-- Puts the lines together that a quote connects, after the `begun` part of a line. Where the file
ends with something open, there is no line. -/
def connect (begun : List Char) (scan : Scan) : List (List Char) → List (Option (List Char))
  | [] => if scan = .nothing then [] else [none]
  | line :: lines =>
    if isComment (begun ++ line) then some [] :: connect [] .nothing lines
    else match scan.follow line with
      | (text, .nothing) => some (begun ++ text) :: connect [] .nothing lines
      | (text, scan) => connect (begun ++ text) scan lines

/-! ### Values -/

/-- What the character after a backslash stands for. -/
def escaped? (c : Char) : Option Char :=
  if c = 'n' then some '\n'
  else if c = '\\' ∨ c = '\'' ∨ c = '"' ∨ c = '$' ∨ c = ' ' then some c
  else none

/-- How the next character of a value is taken. The flag says whether a double quote is open. -/
inductive Mode where
  | text (quoted : Bool)
  | literal
  | escape (quoted : Bool)
  /-- In the name of a variable. -/
  | name (quoted : Bool) (name : List Char)
  /-- In the name of a variable with braces around it. -/
  | braced (quoted : Bool) (name : List Char)
  /-- After the value, where only a comment may follow. -/
  | done

/-- Reads a value to its end. The names of variables are letters and numerals of any script; the
character that ends a name without braces stands for itself. -/
def readValue (valueOf : List Char → List Char) : Mode → List Char → Option (List Char)
  | .text quoted, [] => if quoted then none else some []
  | .literal, [] => none
  | .escape quoted, [] => if quoted then none else some []
  | .name quoted name, [] => if quoted then none else some (valueOf name)
  | .braced _ _, [] => none
  | .done, [] => some []
  | .text quoted, c :: cs =>
    if c = '$' then readValue valueOf (.name quoted []) cs
    else if c = '"' then readValue valueOf (.text !quoted) cs
    else if c = '\\' then readValue valueOf (.escape quoted) cs
    else if c = '\'' ∧ !quoted then readValue valueOf .literal cs
    else if (c = ' ' ∨ c = '\t') ∧ !quoted then readValue valueOf .done cs
    else (readValue valueOf (.text quoted) cs).map (c :: ·)
  | .literal, c :: cs =>
    if c = '\'' then readValue valueOf (.text false) cs
    else (readValue valueOf .literal cs).map (c :: ·)
  | .escape quoted, c :: cs => do
    let c ← escaped? c
    let rest ← readValue valueOf (.text quoted) cs
    return c :: rest
  | .name quoted name, c :: cs =>
    if Text.isAlphanumeric c then readValue valueOf (.name quoted (name ++ [c])) cs
    else if c = '\x7b' ∧ name.isEmpty then readValue valueOf (.braced quoted []) cs
    else if c = '$' then (readValue valueOf (.name quoted []) cs).map (valueOf name ++ ·)
    else (readValue valueOf (.text quoted) cs).map fun rest => valueOf name ++ c :: rest
  | .braced quoted name, c :: cs =>
    if c = '\x7d' then (readValue valueOf (.text quoted) cs).map (valueOf name ++ ·)
    else readValue valueOf (.braced quoted (name ++ [c])) cs
  | .done, c :: cs =>
    if c = '#' then some []
    else if c = ' ' ∨ c = '\t' then readValue valueOf .done cs
    else none

/-! ### Assignments -/

/-- Splits off a name: letters, digits, underscores and points, no digit or point in front. -/
def splitName (cs : List Char) : Option (List Char × List Char) :=
  let inName (c : Char) : Bool := c.isAlphanum || c == '_' || c == '.'
  if cs.head?.any fun c => c.isAlpha || c == '_' then
    some (cs.takeWhile inName, cs.dropWhile inName)
  else none

/-- Splits off a name and the equals sign after it. -/
def splitTarget (cs : List Char) : Option (List Char × List Char) := do
  let (name, rest) ← splitName cs
  match Text.skipBlanks rest with
  | '=' :: rest => return (name, rest)
  | _ => none

/-- Splits off what a line assigns to; `export` may stand before it, and may also be it. -/
def splitExport (cs : List Char) : Option (List Char × List Char) :=
  match splitTarget cs with
  | some split => some split
  | none => match splitName cs with
    | some (['e', 'x', 'p', 'o', 'r', 't'], rest) => splitTarget (Text.skipBlanks rest)
    | _ => none

/-- Reads the assignment on a line; an empty line and a comment have none. -/
def readLine (valueOf : List Char → List Char) (line : List Char) :
    Option (Option (String × String)) :=
  let line := Text.trim line
  if line.isEmpty || isComment line then some none
  else do
    let (name, rest) ← splitExport line
    let rest := Text.skipBlanks rest
    if rest.isEmpty || isComment rest then return some (String.ofList name, "")
    else
      let value ← readValue valueOf (.text false) rest
      return some (String.ofList name, String.ofList value)

end Assignments

namespace Environment

/-- Carries out lines up to the first that is no assignment. -/
def extendBy (e : Environment) : List (Option (List Char)) → Environment
  | [] | none :: _ => e
  | some line :: lines =>
    let valueOf (name : List Char) : List Char := ((e.get? (String.ofList name)).getD "").toList
    match Assignments.readLine valueOf line with
    | none => e
    | some none => e.extendBy lines
    | some (some (name, value)) => (e.supply name value).extendBy lines

/-- Carries out a file of assignments. -/
def extend (e : Environment) (text : String) : Environment :=
  let lines := Assignments.splitLines (Text.dropByteOrderMark text.toList)
  e.extendBy (Assignments.connect [] .nothing lines)

end Environment

end RobotControl
