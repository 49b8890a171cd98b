import EventCamera.Camera.Synthetic
/-!
# Noise

Draws for the synthetic camera from a generator of random numbers, so that a seed settles every batch.
-/

namespace EventCamera

namespace Synthetic

/-- The draws for one event. -/
def draw (s : SyntheticSettings) (g : StdGen) : Draw × StdGen :=
  match randNat g 0 (s.width.toNat - 1) with
  | (column, g) =>
    match randNat g 0 (s.height.toNat - 1) with
    | (row, g) =>
      match randBool g with
      | (brighter, g) => (⟨column.toUInt32, row.toUInt32, brighter⟩, g)

/-- The draws for `n` events, added to those already made. -/
def drawMore (s : SyntheticSettings) : Nat → Array Draw → StdGen → Array Draw × StdGen
  | 0, draws, g => (draws, g)
  | n + 1, draws, g =>
    match draw s g with
    | (d, g) => drawMore s n (draws.push d) g

/-- A camera between two batches: the sensor time at which the next one starts, and its noise. -/
structure Sweep where
  start : Timestamp
  noise : StdGen

/-- A camera that has delivered nothing. -/
def Sweep.new (s : SyntheticSettings) : Sweep := ⟨0, mkStdGen s.seed.toNat⟩

/-- The next batch. -/
def Sweep.next (s : SyntheticSettings) (sweep : Sweep) : List Event × Sweep :=
  match drawMore s s.eventsPerBatch.toNat #[] sweep.noise with
  | (draws, noise) =>
    (batchAt s sweep.start (fun i => draws.getD i default), ⟨sweep.start + s.span.toInt64, noise⟩)

end Synthetic

end EventCamera
