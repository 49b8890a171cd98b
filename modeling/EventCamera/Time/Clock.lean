import EventCamera.Time.Instant
/-!
# Clock

The wall clock is a sequence of readings, and each look at it takes the next one.
-/

namespace EventCamera

/-- The readings of the wall clock and the number of the next one. -/
structure Clock where
  reading : Nat → Instant
  next : Nat

namespace Clock

/-- A clock that stands still. -/
def still (i : Instant) : Clock := ⟨fun _ => i, 0⟩

instance : Inhabited Clock := ⟨still default⟩

/-- Looks at the clock. -/
def read (c : Clock) : Instant × Clock := (c.reading c.next, { c with next := c.next + 1 })

end Clock

end EventCamera
