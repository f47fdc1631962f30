import RobotControl.Decimal.Dyadic

/-!
The shortest decimal that names a double.

Many decimals read back as one double: all those in the interval that rounds to it. `shortest`
picks one with the fewest digits, and of those the nearest to the double. Two may be equally near;
a `Tie` says which of them is taken.

The search is exact. A dyadic number has a finite decimal expansion, so the double and the ends of
its interval become natural numbers at one common power of ten, and candidates are compared there.
-/

namespace RobotControl.Decimal

/-- Which of two equally near candidates is taken. -/
inductive Tie where
  /-- The one further from zero. -/
  | up
  /-- The one whose last digit is even. -/
  | even
deriving DecidableEq

/-- The decimal `0.d₁d₂… * 10 ^ point`. -/
structure Numeral where
  digits : List Char
  point : Int
deriving DecidableEq

/-- A double with the two ends of the interval that rounds to it, as multiples of one power of
ten. The ends belong to the interval when `closed` holds. -/
structure Window where
  low : Nat
  value : Nat
  high : Nat
  closed : Bool
  exponent : Int
deriving DecidableEq

/-- The ends lie half a spacing away. Below a power of two the spacing halves, so the lower end of
such a double is only a quarter away. Rounding goes to even mantissas, which own their ends. -/
def Dyadic.window (x : Dyadic) : Window :=
  let quarter := x.exponent - 2
  let narrow := x.mantissa = 0x10000000000000 ∧ x.exponent ≠ leastExponent
  let low := 4 * x.mantissa - (if narrow then 1 else 2)
  let closed := x.mantissa % 2 == 0
  if 0 ≤ quarter then
    let scale := Nat.pow 2 quarter.toNat
    ⟨low * scale, 4 * x.mantissa * scale, (4 * x.mantissa + 2) * scale, closed, 0⟩
  else
    let scale := Nat.pow 5 (-quarter).toNat
    ⟨low * scale, 4 * x.mantissa * scale, (4 * x.mantissa + 2) * scale, closed, quarter⟩

/-- The candidate reads back as the double of the window. -/
def Window.accepts (w : Window) (candidate : Nat) : Bool :=
  if w.closed then w.low ≤ candidate && candidate ≤ w.high
  else w.low < candidate && candidate < w.high

/-- The multiple of `unit` in the window that is nearest to its value, if there is one. Only the
two multiples around the value can be it. -/
def Window.nearest? (w : Window) (tie : Tie) (unit : Nat) : Option Nat :=
  let down := w.value / unit * unit
  let up := down + unit
  match w.accepts down, w.accepts up with
  | false, false => none
  | true, false => some down
  | false, true => some up
  | true, true =>
    let below := w.value - down
    let above := up - w.value
    if below < above then some down
    else if above < below then some up
    else match tie with
      | .up => some up
      | .even => if w.value / unit % 2 = 0 then some down else some up

/-- The decimal `n * 10 ^ exponent`, without the zeros at its end. -/
def Numeral.ofNat (n : Nat) (exponent : Int) : Numeral :=
  let digits := Nat.toDigits 10 n
  ⟨(digits.reverse.dropWhile (· == '0')).reverse, digits.length + exponent⟩

/-- Seventeen digits always tell a double from its neighbours. -/
def enoughDigits : Nat := 17

/-- The shortest decimal that reads back as `x`: the first digit count, from one up, at which the
window has a multiple. -/
def Dyadic.shortest (tie : Tie) (x : Dyadic) : Numeral :=
  let w := x.window
  let length := (Nat.toDigits 10 w.value).length
  let found := (List.range enoughDigits).findSome? fun n => w.nearest? tie (Nat.pow 10 (length - (n + 1)))
  Numeral.ofNat (found.getD w.value) w.exponent

end RobotControl.Decimal
