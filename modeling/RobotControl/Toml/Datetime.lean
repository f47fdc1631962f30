import RobotControl.Decimal.Literal

/-!
Dates and times in TOML.

A date, a time of day, or both with a mark between them; behind both may stand the distance from
universal time. They are kept as text in one spelling: nine digits of a second at most and no zero
at their end, capital marks, and no distance below zero of less than a minute.

A `literal` stands in a document without quotes. A `quoted` date may go a little further: up to the
end of a day's last hour, with any distance of a day at most, and with a distance right behind a
date.
-/

namespace RobotControl.Toml

/-- How a date is written. -/
inductive DateForm where
  | literal
  | quoted
deriving DecidableEq

/-- Splits off a number of exactly so many digits. -/
def splitFixed (size : Nat) (cs : List Char) : Option (Nat × List Char) :=
  let digits := cs.take size
  if digits.length = size ∧ digits.all Char.isDigit then
    some (Decimal.digitsValue digits, cs.drop size)
  else none

def isLeap (year : Nat) : Bool :=
  (year % 4 == 0 && year % 100 != 0) || year % 400 == 0

def daysIn (year month : Nat) : Nat :=
  if month = 2 then if isLeap year then 29 else 28
  else if month = 4 ∨ month = 6 ∨ month = 9 ∨ month = 11 then 30
  else 31

/-- Splits off a day: year, month and day of the month. Only days that there are count. -/
def splitDate (cs : List Char) : Option (List Char × List Char) := do
  match ← splitFixed 4 cs with
  | (year, '-' :: rest) => match ← splitFixed 2 rest with
    | (month, '-' :: rest) =>
      let (day, rest) ← splitFixed 2 rest
      if 1 ≤ month ∧ month ≤ 12 ∧ 1 ≤ day ∧ day ≤ daysIn year month then
        return (cs.take 10, rest)
      else none
    | _ => none
  | _ => none

/-- The fraction of a second as it is kept. -/
def keptFraction (digits : List Char) : List Char :=
  let kept := ((digits.take 9).reverse.dropWhile (· == '0')).reverse
  if kept.isEmpty then [] else '.' :: kept

/-- The last hour of a day. -/
def DateForm.lastHour : DateForm → Nat
  | .literal => 23
  | .quoted => 24

/-- Splits off a time of day and answers it as it is kept. -/
def splitTime (form : DateForm) (cs : List Char) : Option (List Char × List Char) := do
  match ← splitFixed 2 cs with
  | (hour, ':' :: rest) => match ← splitFixed 2 rest with
    | (minute, ':' :: rest) =>
      let (second, rest) ← splitFixed 2 rest
      if form.lastHour < hour ∨ 59 < minute ∨ 60 < second then none
      else match rest with
        | '.' :: rest =>
          let digits := rest.takeWhile Char.isDigit
          if digits.isEmpty then none
          else return (cs.take 8 ++ keptFraction digits, rest.dropWhile Char.isDigit)
        | rest => return (cs.take 8, rest)
    | _ => none
  | _ => none

/-- Two digits for a number below a hundred. -/
def twoDigits (n : Nat) : List Char :=
  [Nat.digitChar (n / 10), Nat.digitChar (n % 10)]

/-- The distance is one that can be written in this form. -/
def DateForm.allows (form : DateForm) (hours minutes : Nat) : Bool :=
  match form with
  | .literal => hours ≤ 23 && minutes ≤ 59
  | .quoted => 60 * hours + minutes ≤ 24 * 60

/-- Reads the optional distance from universal time and answers it as it is kept. -/
def distance? (form : DateForm) : List Char → Option (List Char)
  | [] => some []
  | ['Z'] | ['z'] => some ['Z']
  | sign :: rest => do
    match ← splitFixed 2 rest with
    | (hours, ':' :: rest) =>
      let (minutes, rest) ← splitFixed 2 rest
      if (sign == '+' || sign == '-') && rest.isEmpty && form.allows hours minutes then
        let size := 60 * hours + minutes
        let sign := if size = 0 then '+' else sign
        return sign :: twoDigits (size / 60) ++ ':' :: twoDigits (size % 60)
      else none
    | _ => none

/-- A mark between a date and a time of day. -/
def isTimeMark (c : Char) : Bool :=
  c == 'T' || c == 't' || c == ' '

/-- Reads a date, a time of day or both, and answers it as it is kept. -/
def datetime? (form : DateForm) (cs : List Char) : Option String :=
  match splitDate cs with
  | some (date, []) => some (String.ofList date)
  | some (date, mark :: rest) =>
    if isTimeMark mark then do
      let (time, rest) ← splitTime form rest
      return String.ofList (date ++ 'T' :: time ++ (← distance? form rest))
    else if form = .quoted then do
      return String.ofList (date ++ (← distance? form (mark :: rest)))
    else none
  | none => match splitTime form cs with
    | some (time, []) => some (String.ofList time)
    | _ => none

end RobotControl.Toml
