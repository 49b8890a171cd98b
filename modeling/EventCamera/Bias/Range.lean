import EventCamera.Text.Decimal
/-!
# Ranges of bias values

A bias is a tuning value of the sensor. The device recommends one range for it and accepts a wider
one.
-/

namespace EventCamera

abbrev BiasValue := Int32

def BiasValue.text (v : BiasValue) : String := Decimal.ofInt v.toInt

/-- The values from `min` to `max`, both included. -/
structure BiasRange where
  min : BiasValue
  max : BiasValue
  deriving DecidableEq, Repr, Inhabited

namespace BiasRange

/-- The range between two bounds, in whichever order a device reports them. -/
def between (a b : BiasValue) : BiasRange := if a ≤ b then ⟨a, b⟩ else ⟨b, a⟩

/-- The value of the range nearest to the given one. -/
def clamp (r : BiasRange) (v : BiasValue) : BiasValue :=
  if v < r.min then r.min else if r.max < v then r.max else v

def contains (r : BiasRange) (v : BiasValue) : Bool := r.min ≤ v && v ≤ r.max

def text (r : BiasRange) : String := r.min.text ++ ".." ++ r.max.text

theorem min_le_max_between (a b : BiasValue) : (between a b).min ≤ (between a b).max := by
  unfold between
  split
  · assumption
  · next h => exact Int32.le_of_lt (Int32.not_le.1 h)

end BiasRange

/-- What a device tells about a bias. -/
structure BiasInfo where
  /-- The range that writes are clamped to. -/
  recommended : BiasRange
  /-- The range the device accepts. -/
  allowed : BiasRange
  modifiable : Bool
  description : String
  category : String
  deriving DecidableEq, Repr, Inhabited

end EventCamera
