/-!
Characters named by hexadecimal digits.

Many kinds of text name a character by its code point. The code points of surrogates belong to no
character: in texts that count in units of 16 bits, two of them stand for one character.
-/

namespace RobotControl.Text

/-- The value of a hexadecimal digit. -/
def hexValue? (c : Char) : Option Nat :=
  if '0' ≤ c ∧ c ≤ '9' then some (c.toNat - '0'.toNat)
  else if 'a' ≤ c ∧ c ≤ 'f' then some (c.toNat - 'a'.toNat + 10)
  else if 'A' ≤ c ∧ c ≤ 'F' then some (c.toNat - 'A'.toNat + 10)
  else none

/-- Splits off exactly so many hexadecimal digits and answers the number they write. -/
def splitHex (count : Nat) (cs : List Char) : Option (Nat × List Char) := do
  let digits := cs.take count
  if digits.length < count then none
  else
    let values ← digits.mapM hexValue?
    return (values.foldl (fun n d => 16 * n + d) 0, cs.drop count)

/-- The unit begins a pair of surrogates. -/
def isLeading (unit : Nat) : Bool :=
  0xD800 ≤ unit && unit < 0xDC00

/-- The unit ends a pair of surrogates. -/
def isTrailing (unit : Nat) : Bool :=
  0xDC00 ≤ unit && unit < 0xE000

/-- The character that a pair of surrogates stands for. -/
def pairChar (leading trailing : Nat) : Char :=
  Char.ofNat (0x10000 + (leading - 0xD800) * 0x400 + (trailing - 0xDC00))

/-- The character with a code point. -/
def charOfCode? (code : Nat) : Option Char :=
  if code < 0x110000 && !isLeading code && !isTrailing code then some (Char.ofNat code) else none

/-- Splits off the character that so many hexadecimal digits name. -/
def splitCodePoint (count : Nat) (cs : List Char) : Option (Char × List Char) := do
  let (code, rest) ← splitHex count cs
  return (← charOfCode? code, rest)

/-- Every character is found by its code point. -/
theorem charOfCode?_toNat (c : Char) : charOfCode? c.toNat = some c := by
  have valid := c.valid
  simp only [UInt32.isValidChar, Nat.isValidChar] at valid
  have small : c.toNat < 0x110000 := by simp only [Char.toNat]; omega
  have leading : isLeading c.toNat = false := by
    simp only [isLeading, Char.toNat, Bool.and_eq_false_iff, decide_eq_false_iff_not]; omega
  have trailing : isTrailing c.toNat = false := by
    simp only [isTrailing, Char.toNat, Bool.and_eq_false_iff, decide_eq_false_iff_not]; omega
  simp [charOfCode?, small, leading, trailing]

end RobotControl.Text
