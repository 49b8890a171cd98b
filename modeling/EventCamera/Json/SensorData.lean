import EventCamera.Bias.Range
import EventCamera.Camera.Synthetic
import EventCamera.Json.Stored
import EventCamera.Sensor
/-!
# Stored sensor data

The stored forms of events, sizes, biases and the synthetic camera. A direction is stored as its name;
it is also read from an object with that name as its only member and `null` for its value.
-/

namespace EventCamera

open Stored

/-- The name of a direction. -/
def Polarity.name : Polarity → String
  | .on => "On"
  | .off => "Off"

/-- The direction with the given name. -/
def Polarity.ofName? (name : String) : Option Polarity :=
  if name = "On" then some .on else if name = "Off" then some .off else none

instance : Stored Polarity where
  store p := .string p.name
  load?
    | .string name => Polarity.ofName? name
    | .object [(name, .null)] => Polarity.ofName? name
    | _ => none

instance : Stored Geometry where
  store g := .object [("width", store g.width), ("height", store g.height)]
  load? v :=
    match fields? ["width", "height"] v with
    | some [width, height] => do some ⟨← required width, ← required height⟩
    | _ => none

instance : Stored Event where
  store e := .object [("x", store e.x), ("y", store e.y), ("polarity", store e.polarity), ("t", store e.t)]
  load? v :=
    match fields? ["x", "y", "polarity", "t"] v with
    | some [x, y, polarity, t] => do
      some ⟨← required x, ← required y, ← required polarity, ← required t⟩
    | _ => none

/-- The bounds are taken as they stand. -/
instance : Stored BiasRange where
  store r := .object [("min", store r.min), ("max", store r.max)]
  load? v :=
    match fields? ["min", "max"] v with
    | some [min, max] => do some ⟨← required min, ← required max⟩
    | _ => none

instance : Stored BiasInfo where
  store i := .object [("recommended", store i.recommended), ("allowed", store i.allowed),
    ("modifiable", store i.modifiable), ("description", store i.description), ("category", store i.category)]
  load? v :=
    match fields? ["recommended", "allowed", "modifiable", "description", "category"] v with
    | some [recommended, allowed, modifiable, description, category] => do
      some ⟨← required recommended, ← required allowed, ← required modifiable, ← required description,
        ← required category⟩
    | _ => none

/-- Every field may be missing. -/
instance : Stored SyntheticSettings where
  store s := .object [("width", store s.width), ("height", store s.height),
    ("events_per_batch", store s.eventsPerBatch), ("batch_interval_us", store s.batchInterval),
    ("seed", store s.seed), ("biases", store s.biases)]
  load? v :=
    match fields? ["width", "height", "events_per_batch", "batch_interval_us", "seed", "biases"] v with
    | some [width, height, count, interval, seed, biases] =>
      let d := SyntheticSettings.standard
      do some ⟨← optional d.width width, ← optional d.height height, ← optional d.eventsPerBatch count,
        ← optional d.batchInterval interval, ← optional d.seed seed, ← optional d.biases biases⟩
    | _ => none

end EventCamera
