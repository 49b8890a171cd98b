import EventCamera.Text.Decimal
/-!
# Counters

What happened since the program started, counted modulo 2^64.
-/

namespace EventCamera

/-- The counters of one program run. -/
structure Counters where
  /-- Batches the queue took in. -/
  enqueued : UInt64
  /-- Batches thrown away before the engine used them. -/
  dropped : UInt64
  /-- Events the engine consumed. -/
  events : UInt64
  /-- Consumed events off the sensor. -/
  outOfBounds : UInt64
  /-- Windows closed and published. -/
  windows : UInt64
  /-- Window files written. -/
  recorded : UInt64
  /-- Window files that should have been written and were not. -/
  failures : UInt64
  deriving DecidableEq, Repr, Inhabited

namespace Counters

def zero : Counters := ⟨0, 0, 0, 0, 0, 0, 0⟩

def addEnqueued (c : Counters) : Counters := { c with enqueued := c.enqueued + 1 }

def addDropped (n : UInt64) (c : Counters) : Counters := { c with dropped := c.dropped + n }

def addEvents (n : UInt64) (c : Counters) : Counters := { c with events := c.events + n }

def addOutOfBounds (c : Counters) : Counters := { c with outOfBounds := c.outOfBounds + 1 }

def addWindow (c : Counters) : Counters := { c with windows := c.windows + 1 }

def addRecorded (c : Counters) : Counters := { c with recorded := c.recorded + 1 }

def addFailure (c : Counters) : Counters := { c with failures := c.failures + 1 }

/-- The lines shown at the end of a program run that took the given time. -/
def summary (c : Counters) (seconds : String) : List String :=
  let line (label : String) (n : UInt64) := "- " ++ label ++ ": " ++ Decimal.ofNat n.toNat
  ["Session Statistics:",
    line "Batches enqueued" c.enqueued,
    line "Batches dropped" c.dropped,
    line "Events processed" c.events,
    line "Out-of-bounds events" c.outOfBounds,
    line "Windows finalized" c.windows,
    line "Frames recorded" c.recorded,
    line "Record failures" c.failures,
    "- Session duration: " ++ seconds ++ " seconds"]

end Counters

end EventCamera
