/-!
A double as a signed whole number times a power of two.

Every finite double is `± mantissa * 2 ^ exponent` for exactly one pair with the mantissa below
`2 ^ 53` that its bit pattern names. Decimal text is chosen from this pair in exact arithmetic.
-/

namespace RobotControl.Decimal

/-- The number `mantissa * 2 ^ exponent`. -/
structure Dyadic where
  mantissa : Nat
  exponent : Int
deriving DecidableEq

/-- The magnitude of a double. -/
inductive Magnitude where
  | notANumber
  | infinite
  | finite (value : Dyadic)
deriving DecidableEq

/-- The exponent of the smallest doubles, where the spacing no longer shrinks. -/
def leastExponent : Int := -1074

/-- The sign bit is set. It is also set on negative zero. -/
def isNegative (x : Float) : Bool :=
  x.toBits >>> 63 == 1

/-- Reads the exponent and fraction fields. A zero exponent field marks the doubles without an
implicit leading bit, a field of ones the two kinds of non-finite values. -/
def magnitude (x : Float) : Magnitude :=
  let field := ((x.toBits >>> 52) &&& 0x7ff).toNat
  let fraction := (x.toBits &&& 0xfffffffffffff).toNat
  if field = 0x7ff then
    if fraction = 0 then .infinite else .notANumber
  else if field = 0 then
    .finite ⟨fraction, leastExponent⟩
  else
    .finite ⟨0x10000000000000 + fraction, leastExponent + (field - 1)⟩

end RobotControl.Decimal
