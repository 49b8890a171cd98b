import EventCamera.Bias.Memory
import EventCamera.Camera.Source
/-!
# Synthetic camera

A camera in software: a vertical bar that sweeps over the sensor, one column per millisecond, with
noise between. Batch `k` covers the sensor time from `k` to `k + 1` batch intervals, its events spread
evenly. The random draws of the noise are a parameter.
-/

namespace EventCamera

structure SyntheticSettings where
  width : UInt32
  height : UInt32
  eventsPerBatch : UInt64
  /-- Sensor time that a batch covers, in microseconds. -/
  batchInterval : UInt64
  seed : UInt64
  biases : Bool
  deriving DecidableEq, Repr

namespace SyntheticSettings

def standard : SyntheticSettings := ⟨640, 480, 256, 500, 0x5eed, true⟩

instance : Inhabited SyntheticSettings := ⟨standard⟩

def geometry (s : SyntheticSettings) : Geometry := ⟨s.width, s.height⟩

/-- Sensor time between the starts of two batches, at least one microsecond. -/
def span (s : SyntheticSettings) : UInt64 := if s.batchInterval = 0 then 1 else s.batchInterval

end SyntheticSettings

namespace Synthetic

/-- Random draws for one event: a column below the width, a row below the height, and a coin. -/
structure Draw where
  column : UInt32
  row : UInt32
  brighter : Bool
  deriving DecidableEq, Repr, Inhabited

def deviceName : String := "synthetic:0"

def barColumn (width : UInt32) (start : Timestamp) : UInt16 :=
  ((start / 1000).toUInt64 % width.toUInt64).toUInt16

/-- Event number `i` of a batch that starts at the given time: even ones on the bar, odd ones
anywhere. -/
def event (s : SyntheticSettings) (start : Timestamp) (i : UInt64) (draw : Draw) : Event where
  x := if i % 2 = 0 then barColumn s.width start else draw.column.toUInt16
  y := draw.row.toUInt16
  polarity := if draw.brighter then .on else .off
  t := start + (i * s.span / (if s.eventsPerBatch = 0 then 1 else s.eventsPerBatch)).toInt64

def batchAt (s : SyntheticSettings) (start : Timestamp) (draws : Nat → Draw) : List Event :=
  (List.range s.eventsPerBatch.toNat).map fun i => event s start i.toUInt64 (draws i)

/-- The start of each of the first batches: the sensor clock advances by one span per batch. -/
def starts (s : SyntheticSettings) : Nat → Timestamp
  | 0 => 0
  | k + 1 => starts s k + s.span.toInt64

/-- The first `n` batches, with the draws of each. A sensor without pixels delivers none. -/
def batches (s : SyntheticSettings) (draws : Nat → Nat → Draw) (n : Nat) : List (List Event) :=
  if s.geometry.isEmpty then []
  else (List.range n).map fun k => batchAt s (starts s k) (draws k)

def source (s : SyntheticSettings) (id : String) : Source MemoryBiases where
  id := id
  geometry := s.geometry
  biases := if s.biases then some .standard else none
  startError := none
  running := false

/-- A provider of synthetic cameras with the given names. -/
def providerOf (devices : List String) (s : SyntheticSettings) : Provider MemoryBiases where
  devices := devices
  attempt _ id :=
    if devices.contains id then .ok (source s id)
    else .error (.deviceUnavailable ("no camera named " ++ id))
  attempts := 0

def provider (s : SyntheticSettings) : Provider MemoryBiases := providerOf [deviceName] s

def disconnected : Provider MemoryBiases := providerOf [] .standard

end Synthetic

end EventCamera
