import RobotControl.Action

/-!
Worlds.

A program knows the world only through this interface: it reads sensors and the energy store, and
it attempts actions. A reading may change the state of a world, because nothing stops two readings
in a row from differing; `Steadfast` names the worlds where it does not.

`Recorded` adds to any world a log of every use of the interface. Two executions do the same things
in the same order exactly when they leave the same log.
-/

namespace RobotControl

/-- A state that can be sensed and acted on. -/
class World (σ : Type) where
  /-- Reads a sensor. -/
  sense : Sensor → σ → Bool × σ
  /-- Reads the stored energy. -/
  energy : σ → Float × σ
  /-- Attempts an action. -/
  attempt : Action → σ → Outcome × σ

/-- Reading leaves the state as it was. -/
class Steadfast (σ : Type) [World σ] : Prop where
  sense_state : ∀ (sensor : Sensor) (s : σ), (World.sense sensor s).2 = s
  energy_state : ∀ s : σ, (World.energy s).2 = s

/-- Attempts an action and reports it with its outcome. -/
def perform {σ : Type} [World σ] (action : Action) (s : σ) : Attempt × σ :=
  let (outcome, s) := World.attempt action s
  (⟨action, outcome⟩, s)

/-- One use of the interface. -/
inductive Event where
  | sensed (sensor : Sensor) (value : Bool)
  | measured (energy : Float)
  | attempted (attempt : Attempt)
deriving DecidableEq

/-- A world and the log of its uses, the oldest first. -/
structure Recorded (σ : Type) where
  state : σ
  log : Array Event

namespace Recorded

variable {σ : Type}

/-- Starts a log. -/
def fresh (s : σ) : Recorded σ :=
  ⟨s, #[]⟩

def note (event : Event) (r : Recorded σ) (s : σ) : Recorded σ :=
  ⟨s, r.log.push event⟩

instance [World σ] : World (Recorded σ) where
  sense sensor r :=
    let (value, s) := World.sense sensor r.state
    (value, r.note (.sensed sensor value) s)
  energy r :=
    let (value, s) := World.energy r.state
    (value, r.note (.measured value) s)
  attempt action r :=
    let (outcome, s) := World.attempt action r.state
    (outcome, r.note (.attempted ⟨action, outcome⟩) s)

end Recorded

end RobotControl
