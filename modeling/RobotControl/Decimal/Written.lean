import RobotControl.Decimal.Shortest

/-!
The two decimal texts of a number.

`plain` is the text in programs and messages: positional at any size, and a whole number has no
point. `pointed` is the text in JSON documents: a point is always written, and very large or very
small numbers get an exponent with its sign. Both write the shortest digits.
-/

namespace RobotControl.Decimal

/-- Positional text of a numeral; no digits stand for zero. -/
def Numeral.positional (n : Numeral) : List Char :=
  if n.digits.isEmpty then ['0']
  else if n.point ≤ 0 then
    ['0', '.'] ++ List.replicate (-n.point).toNat '0' ++ n.digits
  else
    let whole := n.point.toNat
    if n.digits.length ≤ whole then
      n.digits ++ List.replicate (whole - n.digits.length) '0'
    else
      n.digits.take whole ++ '.' :: n.digits.drop whole

/-- Text with one digit before the point and an exponent that always shows its sign. -/
def Numeral.scientific (n : Numeral) : List Char :=
  let exponent := n.point - 1
  let mantissa := match n.digits with
    | first :: second :: rest => first :: '.' :: second :: rest
    | digits => digits
  let sign := if exponent < 0 then '-' else '+'
  mantissa ++ ['e', sign] ++ Nat.toDigits 10 exponent.natAbs

def withSign (x : Float) (text : List Char) : List Char :=
  if isNegative x then '-' :: text else text

/-- The text of a number in programs and messages. -/
def plain (x : Float) : List Char :=
  match magnitude x with
  | .notANumber => ['N', 'a', 'N']
  | .infinite => withSign x ['i', 'n', 'f']
  | .finite value => withSign x (value.shortest .up).positional

/-- Exponents of ten written positionally in JSON documents. -/
def positionalExponents (exponent : Int) : Bool :=
  -5 ≤ exponent && exponent < 16

/-- The text of a finite number in JSON documents. -/
def pointed (x : Float) : List Char :=
  match magnitude x with
  | .notANumber | .infinite => ['n', 'u', 'l', 'l']
  | .finite value =>
    let n := value.shortest .even
    let text :=
      if n.digits.isEmpty || positionalExponents (n.point - 1) then
        let text := n.positional
        if text.contains '.' then text else text ++ ['.', '0']
      else n.scientific
    withSign x text

/-- `plain` as a string. -/
def plainText (x : Float) : String :=
  String.ofList (plain x)

end RobotControl.Decimal
