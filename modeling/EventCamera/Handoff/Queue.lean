import EventCamera.Control
/-!
# Handoff queue

A first-in first-out queue of batches between the camera and the engine, with a bounded number of
places. A push has to wait while its session is accepted and no place is free; a pop has to wait
while the program runs and no batch is there. Both are given here as one attempt under the queue's
lock: an attempt that has to wait answers `none` and changes nothing.
-/

namespace EventCamera

inductive PushOutcome where
  | enqueued
  /-- Its session is no longer accepted. -/
  | dropped
  deriving DecidableEq, Repr, Inhabited

/-- Batches in the order they came, and how many there may be. -/
structure HandoffQueue where
  capacity : Nat
  batches : List Batch
  deriving DecidableEq, Repr, Inhabited

namespace HandoffQueue

/-- An empty queue with the given number of places, at least one. -/
def new (capacity : Nat) : HandoffQueue := ⟨max capacity 1, []⟩

def size (q : HandoffQueue) : Nat := q.batches.length

def PushWaits (c : Control) (session : SessionId) (q : HandoffQueue) : Prop :=
  c.accepts session = true ∧ q.capacity ≤ q.size

instance (c : Control) (session : SessionId) (q : HandoffQueue) : Decidable (PushWaits c session q) :=
  inferInstanceAs (Decidable (_ ∧ _))

def PopWaits (c : Control) (q : HandoffQueue) : Prop := c.running = true ∧ q.batches = []

instance (c : Control) (q : HandoffQueue) : Decidable (PopWaits c q) :=
  inferInstanceAs (Decidable (_ ∧ _))

def push? (c : Control) (b : Batch) (q : HandoffQueue) : Option (PushOutcome × HandoffQueue) :=
  if PushWaits c b.session q then none
  else if c.accepts b.session then some (.enqueued, { q with batches := q.batches ++ [b] })
  else some (.dropped, q)

/-- One attempt to take the oldest batch. After shutdown none is handed out. -/
def pop? (c : Control) (q : HandoffQueue) : Option (Option Batch × HandoffQueue) :=
  if PopWaits c q then none
  else if c.running then some (q.batches.head?, { q with batches := q.batches.tail })
  else some (none, q)

/-- Takes every batch out, and tells how many there were. -/
def clear (q : HandoffQueue) : Nat × HandoffQueue := (q.size, { q with batches := [] })

end HandoffQueue

end EventCamera
