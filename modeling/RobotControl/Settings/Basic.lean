import RobotControl.Arena.Costs

/-!
Settings.

The settings of the program are the costs of actions, the longest run and how much it logs. Settings
that can be used pass `Settings.check`; the first of them that is wrong is reported.
-/

namespace RobotControl

structure Settings where
  logLevel : String := "info"
  costs : Costs := {}
  /-- The most steps of a run that is given no number of steps. -/
  maxSteps : Nat := 10000

/-- Why settings cannot be used. -/
inductive SettingsError where
  /-- A file of settings is missing or cannot be read. -/
  | unreadable
  /-- A value has a type that its setting does not take. -/
  | mistyped
  /-- A cost that is not an amount of energy. -/
  | cost (name : String) (value : Float)
  /-- A store that can hold nothing, or no finite amount. -/
  | capacity (value : Float)
  /-- A run of no steps. -/
  | noSteps

def SettingsError.message : SettingsError → String
  | .unreadable => "Failed to read configuration"
  | .mistyped => "Invalid configuration values"
  | .cost name value =>
    "energy." ++ name ++ " must be a non-negative number, got " ++ Decimal.plainText value
  | .capacity value => "energy.capacity must be positive, got " ++ Decimal.plainText value
  | .noSteps => "runner.max_steps must be at least 1"

/-- The capacity is finite and above zero. -/
def Energy.isCapacity (x : Float) : Bool :=
  x.isFinite && decide (0.0 < x)

/-- Refuses costs that are no amounts, and a store without room. -/
def Costs.check (c : Costs) : Except SettingsError Unit :=
  match c.named.find? fun entry => !Energy.isAmount entry.2 with
  | some (name, value) => .error (.cost name value)
  | none => if Energy.isCapacity c.capacity then .ok () else .error (.capacity c.capacity)

/-- Refuses settings that cannot be used, the costs first. -/
def Settings.check (s : Settings) : Except SettingsError Unit := do
  s.costs.check
  if s.maxSteps = 0 then .error .noSteps

end RobotControl
