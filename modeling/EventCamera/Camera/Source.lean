import EventCamera.Bias.Facility
import EventCamera.Sensor
/-!
# Event sources

A provider lists devices and opens them. An open source has a sensor size and perhaps a bias
facility; it delivers events from when it is started until it is stopped.
-/

namespace EventCamera

inductive SourceError where
  | deviceUnavailable (reason : String)
  | alreadyRunning
  deriving DecidableEq, Repr

def SourceError.message : SourceError → String
  | deviceUnavailable reason => "device unavailable: " ++ reason
  | alreadyRunning => "source is already running"

/-- An open source, with a bias facility of state `δ` if it has one. -/
structure Source (δ : Type) where
  id : String
  geometry : Geometry
  biases : Option δ
  /-- What starting the source fails with, if it does. -/
  startError : Option SourceError
  running : Bool
  deriving Inhabited

namespace Source

variable {δ : Type}

def start (s : Source δ) : Except SourceError (Source δ) :=
  match s.startError with
  | some e => .error e
  | none => if s.running then .error .alreadyRunning else .ok { s with running := true }

def stop (s : Source δ) : Source δ := { s with running := false }

/-- The same source with another view of its bias facility. -/
def mapBiases {ε : Type} (f : δ → ε) (s : Source δ) : Source ε :=
  ⟨s.id, s.geometry, s.biases.map f, s.startError, s.running⟩

end Source

/-- The devices that can be opened. What opening one gives may depend on how many attempts there
were before. -/
structure Provider (δ : Type) where
  devices : List String
  attempt : Nat → String → Except SourceError (Source δ)
  attempts : Nat

namespace Provider

variable {δ : Type}

def none : Provider δ := ⟨[], fun _ _ => .error (.deviceUnavailable "no camera detected"), 0⟩

instance : Inhabited (Provider δ) := ⟨none⟩

def openDevice (id : String) (p : Provider δ) : Except SourceError (Source δ) × Provider δ :=
  (p.attempt p.attempts id, { p with attempts := p.attempts + 1 })

def openFirst (p : Provider δ) : Except SourceError (Source δ) × Provider δ :=
  match p.devices with
  | [] => (.error (.deviceUnavailable "no camera detected"), p)
  | id :: _ => p.openDevice id

end Provider

end EventCamera
