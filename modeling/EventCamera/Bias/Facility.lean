import EventCamera.Bias.Range
/-!
# Bias facilities

A facility gives access to the biases of an open camera. It lists them by name, tells what it knows
about each, and takes writes. What it lists, what it knows and what it reads back need not agree: a
device may withhold any of them.
-/

namespace EventCamera

inductive BiasError where
  | unsupported
  | unknown (name : String)
  | readOnly (name : String)
  | writeFailed (name : String) (value : BiasValue)
  deriving DecidableEq, Repr

def BiasError.message : BiasError → String
  | unsupported => "this device does not expose a bias facility"
  | unknown name => "bias \"" ++ name ++ "\" is not available on this camera"
  | readOnly name => "bias \"" ++ name ++ "\" is read-only and cannot be modified"
  | writeFailed name value => "failed to set bias \"" ++ name ++ "\" to " ++ value.text

/-- Access to the biases of a device with state `δ`. -/
class BiasFacility (δ : Type) where
  /-- The listed biases with their values, ordered by name. -/
  list : δ → List (String × BiasValue)
  /-- What the device tells about a bias. -/
  info? : δ → String → Option BiasInfo
  /-- The value the device reports. -/
  get? : δ → String → Option BiasValue
  /-- Writes a value; the caller has made sure that it makes sense. -/
  set : δ → String → BiasValue → Except BiasError Unit × δ

end EventCamera
