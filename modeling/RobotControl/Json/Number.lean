import RobotControl.Decimal.Literal
import RobotControl.Json.Basic

/-!
What a JSON number stands for.

A literal without a point and an exponent is a whole number if 64 bits hold it, and a double
otherwise. The double is not always the nearest one: the digits are gathered into a 64-bit
significand, digits that no longer fit only move the point, and the significand is then scaled by
one power of ten. So a value with many digits can be off by the rounding of that last step.
-/

namespace RobotControl.Json

/-- The value of a number. -/
inductive Number where
  | natural (n : Nat)
  /-- A whole number below zero. -/
  | negative (n : Int)
  | real (x : Float)

/-- The parts of a number literal. -/
structure NumberParts where
  negative : Bool
  whole : List Char
  fraction : Option (List Char)
  exponent : Option Int
deriving DecidableEq

/-- Splits an exponent off: its mark, an optional sign and digits. -/
def splitExponent : List Char → Option (Option Int × List Char)
  | mark :: cs =>
    if mark == 'e' || mark == 'E' then
      let (negative, cs) := Decimal.splitSign cs
      let digits := cs.takeWhile Char.isDigit
      if digits.isEmpty then none
      else
        let size : Int := Decimal.digitsValue digits
        some (some (if negative then -size else size), cs.dropWhile Char.isDigit)
    else some (none, mark :: cs)
  | [] => some (none, [])

/-- Splits a fraction off: a point and digits. -/
def splitFraction : List Char → Option (Option (List Char) × List Char)
  | '.' :: cs =>
    let digits := cs.takeWhile Char.isDigit
    if digits.isEmpty then none else some (some digits, cs.dropWhile Char.isDigit)
  | cs => some (none, cs)

/-- Splits a number literal off the beginning of a text. Leading zeros are not allowed. -/
def splitNumber (cs : List Char) : Option (NumberParts × List Char) := do
  let (negative, cs) := match cs with
    | '-' :: cs => (true, cs)
    | cs => (false, cs)
  let whole := cs.takeWhile Char.isDigit
  if whole.isEmpty || (whole.head? == some '0' && whole.length != 1) then none
  else
    let (fraction, cs) ← splitFraction (cs.dropWhile Char.isDigit)
    let (exponent, cs) ← splitExponent cs
    return (⟨negative, whole, fraction, exponent⟩, cs)

/-- The greatest 64-bit word. -/
def maxWord : Nat := UInt64.size - 1

/-- Appends digits to a significand for as long as a 64-bit word holds it, and counts them. -/
def gather (significand : Nat) : List Char → Nat × Nat
  | [] => (significand, 0)
  | digit :: digits =>
    let longer := 10 * significand + (digit.toNat - '0'.toNat)
    if maxWord < longer then (significand, 0)
    else
      let (significand, taken) := gather longer digits
      (significand, taken + 1)

/-- Scales by one power of ten, or by two when the exponent is below the smallest power. A result
too large for doubles is none. -/
def scale (significand : Nat) (exponent : Int) : Option Float :=
  let x := Float.ofNat significand
  let power (n : Nat) : Float := Float.ofScientific 1 false n
  if 0 ≤ exponent then
    if significand = 0 then some 0.0
    else if 308 < exponent then none
    else
      let scaled := x * power exponent.toNat
      if scaled.isInf then none else some scaled
  else if -308 ≤ exponent then some (x / power (-exponent).toNat)
  else if -616 ≤ exponent then some (x / power 308 / power (-exponent - 308).toNat)
  else some 0.0

/-- The double a literal stands for. -/
def NumberParts.real? (p : NumberParts) : Option Float :=
  let (leading, taken) := gather 0 p.whole
  let dropped : Int := p.whole.length - taken
  let (significand, places) := gather leading (p.fraction.getD [])
  (scale significand (dropped - places + p.exponent.getD 0)).map fun x =>
    if p.negative then -x else x

/-- The value of a literal. Zero with a minus sign is the double. -/
def NumberParts.value? (p : NumberParts) : Option Number :=
  let size := Decimal.digitsValue p.whole
  match p.fraction, p.exponent with
  | none, none =>
    if p.negative then
      if size ≠ 0 ∧ size ≤ UInt64.size / 2 then some (.negative (-size)) else p.real?.map .real
    else if size ≤ maxWord then some (.natural size)
    else p.real?.map .real
  | _, _ => p.real?.map .real

/-- The value of a number as it was written. -/
def numberValue? (literal : List Char) : Option Number :=
  (splitNumber literal).bind fun split => split.1.value?

/-- The value of a number read as a double. -/
def Number.toFloat : Number → Float
  | natural n => Float.ofNat n
  | negative n => -Float.ofNat n.natAbs
  | real x => x

end RobotControl.Json
