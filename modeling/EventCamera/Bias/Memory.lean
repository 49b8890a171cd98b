import EventCamera.Bias.Facility
/-!
# Biases in memory

A facility that keeps values in a table ordered by name. It backs the synthetic camera, and can be
told to fail every write as a flaky device would.
-/

namespace EventCamera

structure MemoryBias where
  value : BiasValue
  info : BiasInfo
  deriving DecidableEq, Repr, Inhabited

structure MemoryBiases where
  /-- The biases, ordered by name. -/
  entries : List (String × MemoryBias)
  /-- How many writes reached the table. -/
  setCalls : Nat
  /-- Whether every write fails. -/
  failWrites : Bool
  deriving DecidableEq, Repr, Inhabited

namespace MemoryBiases

def empty : MemoryBiases := ⟨[], 0, false⟩

/-- Puts an entry into an ordered list, in place of the one with that name. -/
def insertEntry (name : String) (b : MemoryBias) :
    List (String × MemoryBias) → List (String × MemoryBias)
  | [] => [(name, b)]
  | (other, c) :: rest =>
    if name < other then (name, b) :: (other, c) :: rest
    else if name = other then (name, b) :: rest
    else (other, c) :: insertEntry name b rest

/-- Adds a bias, in place of the one with that name. -/
def insert (name : String) (value : BiasValue) (info : BiasInfo) (m : MemoryBiases) : MemoryBiases :=
  { m with entries := insertEntry name ⟨value, info⟩ m.entries }

/-- The biases of a typical contrast-detection sensor. -/
def standard : MemoryBiases :=
  let fixed (r : BiasRange) (description category : String) : BiasInfo :=
    ⟨r, r, false, description, category⟩
  let tunable (r allowed : BiasRange) (description category : String) : BiasInfo :=
    ⟨r, allowed, true, description, category⟩
  empty
    |>.insert "bias_diff" 0 (fixed ⟨-25, 23⟩ "Reference level of the contrast detector" "Contrast")
    |>.insert "bias_diff_on" 0 (tunable ⟨-85, 140⟩ ⟨-85, 180⟩ "ON contrast threshold" "Contrast")
    |>.insert "bias_diff_off" 0 (tunable ⟨-35, 190⟩ ⟨-35, 210⟩ "OFF contrast threshold" "Contrast")
    |>.insert "bias_fo" 0 (tunable ⟨-35, 55⟩ ⟨-35, 55⟩ "Low-pass filter cut-off" "Bandwidth")
    |>.insert "bias_hpf" 0 (tunable ⟨0, 120⟩ ⟨0, 120⟩ "High-pass filter cut-off" "Bandwidth")
    |>.insert "bias_refr" 0 (tunable ⟨-20, 235⟩ ⟨-20, 235⟩ "Refractory period" "Advanced")

def find? (m : MemoryBiases) (name : String) : Option MemoryBias := m.entries.lookup name

/-- Gives the bias of the given name another value. -/
def replaceValue (name : String) (value : BiasValue) (m : MemoryBiases) : MemoryBiases :=
  { m with entries := m.entries.map fun (n, b) => if n = name then (n, { b with value }) else (n, b) }

/-- Writes a value. The call is counted also when it fails. -/
def set (m : MemoryBiases) (name : String) (value : BiasValue) : Except BiasError Unit × MemoryBiases :=
  let m := { m with setCalls := m.setCalls + 1 }
  if m.failWrites then (.error (.writeFailed name value), m)
  else match m.find? name with
    | none => (.error (.unknown name), m)
    | some b =>
      if b.info.allowed.contains value then (.ok (), m.replaceValue name value)
      else (.error (.writeFailed name value), m)

instance : BiasFacility MemoryBiases where
  list m := m.entries.map fun (n, b) => (n, b.value)
  info? m name := (m.find? name).map (·.info)
  get? m name := (m.find? name).map (·.value)
  set := set

end MemoryBiases

end EventCamera
