import EventCamera.Counters
import EventCamera.Files.Tree
import EventCamera.Frame
import EventCamera.Handoff.Queue
import EventCamera.Time.Clock
/-!
# Shared state

What the console, the camera and the engine share: control state, queue, counters, the latest frame,
the file tree and the clock. The queue operations here also keep the counters.
-/

namespace EventCamera

/-- The state that all parties share. -/
structure Shared where
  control : Control
  queue : HandoffQueue
  counters : Counters
  latest : LatestFrame
  files : FileTree
  clock : Clock
  deriving Inhabited

namespace Shared

/-- Nothing has happened, and the queue has the given number of places. -/
def initial (capacity : Nat) : Shared where
  control := .initial
  queue := .new capacity
  counters := .zero
  latest := none
  files := .empty
  clock := default

/-- Performs control writes. -/
def write (ws : List Control.Write) (s : Shared) : Shared :=
  { s with control := s.control.writeAll ws }

/-- Changes the counters. -/
def count (f : Counters → Counters) (s : Shared) : Shared := { s with counters := f s.counters }

/-- One attempt to push a batch; `none` if it has to wait. -/
def push? (b : Batch) (s : Shared) : Option (PushOutcome × Shared) :=
  match s.queue.push? s.control b with
  | none => none
  | some (.enqueued, queue) => some (.enqueued, { s with queue }.count .addEnqueued)
  | some (.dropped, queue) => some (.dropped, { s with queue }.count (.addDropped 1))

/-- One attempt to pop a batch; `none` if it has to wait. -/
def pop? (s : Shared) : Option (Option Batch × Shared) :=
  match s.queue.pop? s.control with
  | none => none
  | some (batch, queue) => some (batch, { s with queue })

/-- Drops every queued batch, and tells how many there were. -/
def clearQueue (s : Shared) : Nat × Shared :=
  match s.queue.clear with
  | (n, queue) => (n, { s with queue }.count (.addDropped n.toUInt64))

/-! ## What the attempts do -/

/-- An attempt to push, in three cases. -/
theorem push?_cases (b : Batch) (s : Shared) :
    -- It waits.
    (s.control.accepts b.session = true ∧ s.queue.capacity ≤ s.queue.size ∧ s.push? b = none) ∨
    -- The batch is appended.
    (s.control.accepts b.session = true ∧ s.queue.size < s.queue.capacity ∧
      s.push? b = some (.enqueued, { s with
        queue := { s.queue with batches := s.queue.batches ++ [b] }
        counters := s.counters.addEnqueued })) ∨
    -- The batch is turned away.
    (s.control.accepts b.session = false ∧
      s.push? b = some (.dropped, { s with counters := s.counters.addDropped 1 })) := by
  by_cases ha : s.control.accepts b.session = true
  · by_cases hw : s.queue.capacity ≤ s.queue.size
    · exact .inl ⟨ha, hw, by simp [push?, HandoffQueue.push?, HandoffQueue.PushWaits, ha, hw]⟩
    · refine .inr (.inl ⟨ha, by omega, ?_⟩)
      simp [push?, HandoffQueue.push?, HandoffQueue.PushWaits, ha, hw, count]
  · rw [Bool.not_eq_true] at ha
    exact .inr (.inr ⟨ha, by simp [push?, HandoffQueue.push?, HandoffQueue.PushWaits, ha, count]⟩)

/-- An attempt to pop, in three cases. -/
theorem pop?_cases (s : Shared) :
    -- It waits.
    (s.control.running = true ∧ s.queue.batches = [] ∧ s.pop? = none) ∨
    -- The oldest batch is handed out.
    (∃ b rest, s.control.running = true ∧ s.queue.batches = b :: rest ∧
      s.pop? = some (some b, { s with queue := { s.queue with batches := rest } })) ∨
    -- The program has stopped.
    (s.control.running = false ∧ s.pop? = some (none, s)) := by
  by_cases hr : s.control.running = true
  · rcases hb : s.queue.batches with _ | ⟨b, rest⟩
    · exact .inl ⟨hr, rfl, by simp [pop?, HandoffQueue.pop?, HandoffQueue.PopWaits, hr, hb]⟩
    · refine .inr (.inl ⟨b, rest, hr, rfl, ?_⟩)
      simp [pop?, HandoffQueue.pop?, HandoffQueue.PopWaits, hr, hb]
  · rw [Bool.not_eq_true] at hr
    exact .inr (.inr ⟨hr, by simp [pop?, HandoffQueue.pop?, HandoffQueue.PopWaits, hr]⟩)

theorem clearQueue_eq (s : Shared) :
    s.clearQueue = (s.queue.size, { s with
      queue := { s.queue with batches := [] }
      counters := s.counters.addDropped s.queue.size.toUInt64 }) := rfl

end Shared

end EventCamera
