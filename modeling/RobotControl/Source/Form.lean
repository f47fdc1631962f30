import RobotControl.Source.Error
import RobotControl.Text.Blank

/-!
Forms.

Program text is made of forms `(tag argument …)`. An argument is a form again or a bare word, and a
form needs no white space around it. `Form.split?` takes one form apart without looking inside its
arguments; `splitArguments` finds where each of them ends by counting parentheses.
-/

namespace RobotControl.Source

open Text

/-- The parentheses of the text match, with `depth` of them open before it. -/
def balancedFrom (depth : Nat) : List Char → Bool
  | [] => depth == 0
  | '(' :: cs => balancedFrom (depth + 1) cs
  | ')' :: cs => match depth with
    | 0 => false
    | depth + 1 => balancedFrom depth cs
  | _ :: cs => balancedFrom depth cs

/-- Every parenthesis of the text has its partner. -/
def balanced (cs : List Char) : Bool :=
  balancedFrom 0 cs

/-- Counts on from `position` to the parenthesis that closes the last of `depth` open ones. -/
def closeFrom (depth position : Nat) : List Char → Option Nat
  | [] => none
  | '(' :: cs => closeFrom (depth + 1) (position + 1) cs
  | ')' :: cs => match depth with
    | 0 => none
    | 1 => some position
    | depth + 2 => closeFrom (depth + 1) (position + 1) cs
  | _ :: cs => closeFrom depth (position + 1) cs

/-- The position of the parenthesis that closes the one at the start of the text. -/
def matchingClose (cs : List Char) : Option Nat :=
  closeFrom 0 0 cs

/-- A bare word ends before white space and before an opening parenthesis. -/
def inWord (c : Char) : Bool :=
  !isBlank c && c != '('

/-- A tag ends before white space and before a parenthesis. -/
def inTag (c : Char) : Bool :=
  inWord c && c != ')'

/-- The length of the argument at the start of a text that does not start with white space: a form
up to its closing parenthesis, or a word. -/
def argumentLength (cs : List Char) : Nat :=
  if cs.head? = some '(' then
    match matchingClose cs with
    | some close => close + 1
    | none => cs.length
  else
    (cs.takeWhile inWord).length

theorem argumentLength_pos {c : Char} {cs : List Char} (h : isBlank c = false) :
    0 < argumentLength (c :: cs) := by
  unfold argumentLength
  by_cases open_ : c = '('
  · subst open_
    simp only [List.head?_cons, ↓reduceIte]
    cases matchingClose ('(' :: cs) <;> simp
  · simp [inWord, h, open_]

/-- The arguments in the text after a tag, in order. -/
def splitArguments : List Char → List (List Char)
  | [] => []
  | c :: cs =>
    if isBlank c then splitArguments cs
    else
      (c :: cs).take (argumentLength (c :: cs)) ::
        splitArguments ((c :: cs).drop (argumentLength (c :: cs)))
termination_by cs => cs.length
decreasing_by
  · simp
  · rename_i notBlank
    have := @argumentLength_pos c cs (Bool.eq_false_iff.mpr notBlank)
    simp only [List.length_drop, List.length_cons]
    omega

/-- A form taken apart: its text without the white space around it, its tag in lower case, and its
arguments as they were written. -/
structure Form where
  text : List Char
  tag : String
  arguments : List (List Char)
deriving DecidableEq

/-- Takes one form apart. There is none if the text goes on after the form, or if the form has no
tag. Only the letters of ASCII change case. -/
def Form.split? (cs : List Char) : Option Form :=
  let text := trim cs
  if text.head? = some '(' ∧ matchingClose text = some (text.length - 1) then
    let inner := skipBlanks ((text.drop 1).dropLast)
    let tag := inner.takeWhile inTag
    if tag.isEmpty then none
    else some ⟨text, String.ofList (tag.map Char.toLower), splitArguments (inner.dropWhile inTag)⟩
  else none

end RobotControl.Source
