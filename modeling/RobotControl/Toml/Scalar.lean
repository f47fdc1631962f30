import RobotControl.Toml.Basic
import RobotControl.Toml.Datetime
import RobotControl.Toml.Text

/-!
Words that are values in TOML: numbers, truth values and dates.

Digits may be grouped by single underscores between them. Whole numbers
have 64 bits with a sign and may also be hexadecimal, octal or binary.
-/

namespace RobotControl.Toml

/-- A character of a word that is a value. -/
def inScalar (c : Char) : Bool :=
  isBare c || c == '+' || c == '.' || c == ':'

/-- Drops the underscores of a run of digits, each of which must stand between two digits. -/
def ungroup (isDigit : Char → Bool) : List Char → Option (List Char)
  | [] => none
  | [c] => if isDigit c then some [c] else none
  | c :: '_' :: rest => if isDigit c then (ungroup isDigit rest).map (c :: ·) else none
  | c :: rest => if isDigit c then (ungroup isDigit rest).map (c :: ·) else none

/-- Reads the digits of a decimal number, which has no zero in front. -/
def decimalDigits? (cs : List Char) : Option (List Char) := do
  let digits ← ungroup Char.isDigit cs
  if digits.head? == some '0' && digits.length != 1 then none else some digits

def inRange (n : Int) : Bool :=
  decide (-0x8000000000000000 ≤ n) && decide (n < 0x8000000000000000)

/-- Reads digits of another base. -/
def based? (base : Nat) (cs : List Char) : Option Int := do
  let digits ← ungroup (fun c => (Text.hexValue? c).any fun d => decide (d < base)) cs
  let values ← digits.mapM Text.hexValue?
  let size := values.foldl (fun n d => base * n + d) 0
  return (size : Int)

/-- Reads a whole number. -/
def integer? (word : List Char) : Option Int := do
  let n ← match word with
    | '0' :: 'x' :: digits => based? 16 digits
    | '0' :: 'o' :: digits => based? 8 digits
    | '0' :: 'b' :: digits => based? 2 digits
    | _ =>
      let (negative, digits) := Decimal.splitSign word
      let size : Int := Decimal.digitsValue (← decimalDigits? digits)
      some (if negative then -size else size)
  if inRange n then some n else none

def isExponentMark (c : Char) : Bool :=
  c == 'e' || c == 'E'

/-- Reads the optional exponent of a float. -/
def exponent? : List Char → Option Int
  | [] => some 0
  | mark :: rest => do
    if isExponentMark mark then
      let (negative, digits) := Decimal.splitSign rest
      let size : Int := Decimal.digitsValue (← ungroup Char.isDigit digits)
      return if negative then -size else size
    else none

/-- Reads a float with a fraction, an exponent or both. One above every double is refused. -/
def float? (word : List Char) : Option Float := do
  let (negative, body) := Decimal.splitSign word
  if body = ['i', 'n', 'f'] then return if negative then -(1.0 / 0.0) else 1.0 / 0.0
  else if body = ['n', 'a', 'n'] then return 0.0 / 0.0
  else
    let beforePoint := body.takeWhile fun c => c != '.' && !isExponentMark c
    let whole ← decimalDigits? beforePoint
    let (fraction, tail) ← match body.drop beforePoint.length with
      | '.' :: rest =>
        let grouped := rest.takeWhile fun c => !isExponentMark c
        (ungroup Char.isDigit grouped).map fun digits => (digits, rest.drop grouped.length)
      | [] => none
      | tail => some ([], tail)
    let exponent ← exponent? tail
    let value := Decimal.Literal.toFloat ⟨negative, whole, fraction, exponent⟩
    if value.isInf ∧ !negative then none else return value

/-- Reads a word as a value. -/
def scalar? (word : List Char) : Option Toml :=
  match word with
  | ['t', 'r', 'u', 'e'] => some (.boolean true)
  | ['f', 'a', 'l', 's', 'e'] => some (.boolean false)
  | _ => match datetime? .literal word with
    | some text => some (.datetime text)
    | none => match integer? word with
      | some n => some (.integer n)
      | none => (float? word).map .float

/-- Splits off a value that is one word. A date may have its time behind a blank. -/
def splitScalar (cs : List Char) : Option (Toml × List Char) := do
  let word := cs.takeWhile inScalar
  let rest := cs.dropWhile inScalar
  let value ← scalar? word
  match splitDate word, rest with
  | some (_, []), ' ' :: later =>
    match datetime? .literal (word ++ ' ' :: later.takeWhile inScalar) with
    | some text => return (.datetime text, later.dropWhile inScalar)
    | none => return (value, rest)
  | _, _ => return (value, rest)

end RobotControl.Toml
