import EventCamera.Bias.Facility
/-!
# Changing and showing biases

A write is clamped to the recommended range, and a bias that cannot be modified is refused before the
device is touched. An adjustment goes on from the listed value and stops at the ends of the value
type.
-/

namespace EventCamera

structure BiasChange where
  name : String
  /-- The value before, if the device reported one. -/
  previous : Option BiasValue
  requested : BiasValue
  /-- The value the device reports afterwards. -/
  applied : BiasValue
  /-- Whether the request was pulled into the recommended range. -/
  clamped : Bool
  deriving DecidableEq, Repr

def BiasChange.text (c : BiasChange) : String :=
  let head := "bias \"" ++ c.name ++ "\""
  let change := match c.previous with
    | some v => head ++ " updated: " ++ v.text ++ " -> " ++ c.applied.text
    | none => head ++ " = " ++ c.applied.text
  if c.clamped then change ++ " (requested " ++ c.requested.text ++ ", clamped)" else change

/-- The sum of two values, or the end of the value type it lies beyond. -/
def BiasValue.plus (a b : BiasValue) : BiasValue :=
  Int32.ofInt (max Int32.minValue.toInt (min (a.toInt + b.toInt) Int32.maxValue.toInt))

namespace BiasFacility

variable {δ : Type} [BiasFacility δ]

def listed? (d : δ) (name : String) : Option BiasValue := (list d).lookup name

/-- Writes a value, clamped to the recommended range. -/
def apply (name : String) (value : BiasValue) (d : δ) : Except BiasError BiasChange × δ :=
  match info? d name with
  | none => (.error (.unknown name), d)
  | some info =>
    if !info.modifiable then (.error (.readOnly name), d)
    else
      let previous := get? d name
      let target := info.recommended.clamp value
      match set d name target with
      | (.error e, d) => (.error e, d)
      | (.ok (), d) =>
        (.ok ⟨name, previous, value, (get? d name).getD target, target != value⟩, d)

/-- Moves a bias from its listed value. -/
def adjust (name : String) (delta : BiasValue) (d : δ) : Except BiasError BiasChange × δ :=
  match listed? d name with
  | none => (.error (.unknown name), d)
  | some v => apply name (v.plus delta) d

/-- What the verbose listing adds to a line. -/
def detailText : Option BiasInfo → String
  | none => " | info=unavailable"
  | some i =>
    " | range=" ++ i.recommended.text ++
      (if i.allowed = i.recommended then "" else " (allowed " ++ i.allowed.text ++ ")") ++
      (if i.description.isEmpty then "" else " | desc=" ++ i.description) ++
      (if i.category.isEmpty then "" else " | category=" ++ i.category) ++
      (if i.modifiable then " | modifiable=yes" else " | modifiable=no")

def lines (verbose : Bool) (d : δ) : List String :=
  (list d).map fun (name, value) =>
    "  - " ++ name ++ " = " ++ value.text ++ (if verbose then detailText (info? d name) else "")

def listing (verbose : Bool) (d : δ) : List String :=
  match lines verbose d with
  | [] => ["No biases reported by the camera."]
  | ls => "Available biases:" :: ls

end BiasFacility

end EventCamera
