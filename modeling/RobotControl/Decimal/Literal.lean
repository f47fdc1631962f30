/-!
Reading decimal text.

A literal is an optional sign, digits with an optional point among them, and an optional exponent.
`Literal.toFloat` is the double nearest to it. `read?` also knows the words for the values that no
literal can name.
-/

namespace RobotControl.Decimal

/-- A decimal literal as it was written. -/
structure Literal where
  negative : Bool
  whole : List Char
  fraction : List Char
  exponent : Int
deriving DecidableEq

/-- The value of a run of digits. -/
def digitsValue (digits : List Char) : Nat :=
  digits.foldl (fun n c => 10 * n + (c.toNat - '0'.toNat)) 0

/-- Splits off an optional sign; the flag says whether it was a minus. -/
def splitSign : List Char → Bool × List Char
  | '-' :: cs => (true, cs)
  | '+' :: cs => (false, cs)
  | cs => (false, cs)

/-- Reads a whole number: an optional sign and at least one digit, to the end. -/
def readInteger? (cs : List Char) : Option Int :=
  let (negative, digits) := splitSign cs
  if digits.isEmpty || !digits.all Char.isDigit then none
  else
    let size : Int := digitsValue digits
    some (if negative then -size else size)

/-- Reads a whole number that is not negative and that 64 bits hold. A plus may stand before it. -/
def readCount? (cs : List Char) : Option Nat :=
  match cs with
  | '-' :: _ => none
  | _ => (readInteger? cs).bind fun n => if n < UInt64.size then some n.toNat else none

/-- Reads a literal that fills the whole text. Digits may be missing on one side of the point, not
on both. -/
def Literal.read? (cs : List Char) : Option Literal :=
  let (negative, body) := splitSign cs
  let whole := body.takeWhile Char.isDigit
  let afterWhole := body.dropWhile Char.isDigit
  let (fraction, afterFraction) := match afterWhole with
    | '.' :: rest => (rest.takeWhile Char.isDigit, rest.dropWhile Char.isDigit)
    | rest => ([], rest)
  if whole.isEmpty && fraction.isEmpty then none
  else match afterFraction with
    | [] => some ⟨negative, whole, fraction, 0⟩
    | mark :: rest =>
      if mark == 'e' || mark == 'E' then
        (readInteger? rest).map fun exponent => ⟨negative, whole, fraction, exponent⟩
      else none

/-- Powers of ten beyond every double and, with the sign reversed, below every one. -/
def hugePlaces : Int := 400

/-- The double nearest to `mantissa * 10 ^ exponent`. Far outside the range of doubles the answer is
known without forming the power. -/
def nearestFloat (mantissa : Nat) (exponent : Int) : Float :=
  let places := (Nat.toDigits 10 mantissa).length + exponent
  if mantissa = 0 then 0.0
  else if hugePlaces < places then 1.0 / 0.0
  else if places < -hugePlaces then 0.0
  else if 0 ≤ exponent then Float.ofScientific mantissa false exponent.toNat
  else Float.ofScientific mantissa true (-exponent).toNat

/-- The double nearest to the literal; one too large for doubles is infinite. -/
def Literal.toFloat (l : Literal) : Float :=
  let size := nearestFloat (digitsValue (l.whole ++ l.fraction)) (l.exponent - l.fraction.length)
  if l.negative then -size else size

/-- The value of a text that is a literal or, in any mix of cases, one of the words `inf`,
`infinity` and `nan` after an optional sign. -/
def read? (cs : List Char) : Option Float :=
  let (negative, body) := splitSign cs
  let word := body.map Char.toLower
  if word == ['i', 'n', 'f'] || word == ['i', 'n', 'f', 'i', 'n', 'i', 't', 'y'] then
    some (if negative then -(1.0 / 0.0) else 1.0 / 0.0)
  else if word == ['n', 'a', 'n'] then some (0.0 / 0.0)
  else (Literal.read? cs).map Literal.toFloat

end RobotControl.Decimal
