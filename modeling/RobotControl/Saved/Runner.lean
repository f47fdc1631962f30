import RobotControl.Execution.Runner
import RobotControl.Saved.Program

/-!
Runners, steps and attempts as JSON.

A runner is saved with its program and its cursor, so that an execution can be resumed later. A
runner without a program has the program `null`, and a missing program is read as one.
-/

namespace RobotControl

/-- The word for a refusal in documents. -/
def Refusal.savedName : Refusal → String
  | .insufficientEnergy => "insufficient_energy"
  | .blocked => "blocked"
  | .nothingHere => "nothing_here"

def Refusal.all : List Refusal :=
  [.insufficientEnergy, .blocked, .nothingHere]

def Refusal.ofSavedName? (name : String) : Option Refusal :=
  Refusal.all.find? fun refusal => refusal.savedName == name

/-! ### Outcomes -/

def Outcome.toJson : Outcome → Json
  | .applied => .object [("t", .string "Applied")]
  | .refused why => .object [("t", .string "Refused"), ("v", .string why.savedName)]

/-- Builds an outcome from its tag and what stands beside it. -/
def Outcome.ofParts? (tag : Option String) (content : Option Json) (intake : Json.Intake) :
    Option Outcome :=
  match tag, content with
  | some "Applied", none | some "Applied", some .null => some .applied
  | some "Refused", some why =>
    ((why.word? intake (Refusal.all.map Refusal.savedName)).bind Refusal.ofSavedName?).map .refused
  | _, _ => none

/-- Reads an outcome. What stands before the tag of an object has to be taken in whole. As the first
item of an array the tag is a plain word, or a place in the list of kinds. -/
def Outcome.ofJson? (intake : Json.Intake) (levels : Nat) (j : Json) : Option Outcome := do
  let kinds := ["Applied", "Refused"]
  match ← j.fields? ["t", "v"], j with
  | [tag, content], .object members =>
    let tag := tag.bind fun tag => tag.word? intake kinds
    let early := (members.find? fun entry => entry.1 == "t" || entry.1 == "v").map (·.1) == some "v"
    if early && !(content.all (·.storable levels)) then none
    else Outcome.ofParts? tag content (if early then .whole else intake)
  | [some tag, content], _ => Outcome.ofParts? (tag.kind? (intake == .whole) kinds) content intake
  | _, _ => none

/-! ### Attempts -/

def Attempt.toJson (a : Attempt) : Json :=
  .object [("primitive", .string a.action.savedName), ("outcome", a.outcome.toJson)]

/-- Reads an attempt. -/
def Attempt.ofJson? (j : Json) : Option Attempt := do
  match ← j.record? ["primitive", "outcome"] with
  | [action, outcome] =>
    return ⟨← Action.ofJson? .direct action, ← Outcome.ofJson? .direct (Json.maxDepth - 2) outcome⟩
  | _ => none

def Attempt.ofDocument? (text : String) : Option Attempt :=
  (Json.read? text).bind Attempt.ofJson?

/-! ### Steps -/

def Step.toJson : Step → Json
  | .executed index attempt =>
    .object [("t", .string "Executed"), ("index", Json.ofNat index),
      ("primitive", .string attempt.action.savedName), ("outcome", attempt.outcome.toJson)]
  | .done => .object [("t", .string "Done")]

/-- Reads a step. -/
def Step.ofJson? (j : Json) : Option Step := do
  if !j.storable Json.maxDepth then none
  else
    let (tag, content) ← j.tagged? "t"
    match ← tag.kind? false ["Executed", "Done"] with
    | "Executed" => match ← content.record? ["index", "primitive", "outcome"] with
      | [index, action, outcome] =>
        return .executed (← index.natural?)
          ⟨← Action.ofJson? .whole action, ← Outcome.ofJson? .whole Json.maxDepth outcome⟩
      | _ => none
    | _ => match content with
      | .object _ | .array [] => some .done
      | _ => none

def Step.ofDocument? (text : String) : Option Step :=
  (Json.read? text).bind Step.ofJson?

/-! ### Runners -/

def Runner.toJson (r : Runner) : Json :=
  let program := match r.program with
    | some p => p.toJson
    | none => .null
  .object [("program", program), ("cursor", Json.ofNat r.cursor)]

/-- Reads a runner. -/
def Runner.ofJson? (j : Json) : Option Runner := do
  match ← j.fields? ["program", "cursor"] with
  | [program, some cursor] =>
    let cursor ← cursor.natural?
    match program with
    | none | some .null => return ⟨none, cursor⟩
    | some p => return ⟨some (← Program.ofJson? (Json.maxDepth - 1) p), cursor⟩
  | _ => none

def Runner.ofDocument? (text : String) : Option Runner :=
  (Json.read? text).bind Runner.ofJson?

end RobotControl
