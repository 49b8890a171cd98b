import EventCamera.Counters
import EventCamera.Files.Tree
import EventCamera.Json.Stored
import EventCamera.Time.Rfc3339
/-!
# Stored counters

The counters of a program run together with when it started and how many seconds it took.
-/

namespace EventCamera

open Stored

instance : Stored Instant where
  store i := .string i.text
  load? v := (load? v).bind Instant.read?

/-- The counters at one moment. -/
structure CounterSnapshot where
  counters : Counters
  startedAt : Instant
  seconds : UInt64
  deriving DecidableEq

instance : Stored CounterSnapshot where
  store s := .object [("batches_enqueued", store s.counters.enqueued),
    ("batches_dropped", store s.counters.dropped), ("events_processed", store s.counters.events),
    ("events_out_of_bounds", store s.counters.outOfBounds), ("windows_finalized", store s.counters.windows),
    ("frames_recorded", store s.counters.recorded), ("record_failures", store s.counters.failures),
    ("started_at", store s.startedAt), ("duration_secs", store s.seconds)]
  load? v :=
    match fields? ["batches_enqueued", "batches_dropped", "events_processed", "events_out_of_bounds",
      "windows_finalized", "frames_recorded", "record_failures", "started_at", "duration_secs"] v with
    | some [enqueued, dropped, events, outOfBounds, windows, recorded, failures, startedAt, seconds] => do
      some ⟨⟨← required enqueued, ← required dropped, ← required events, ← required outOfBounds,
        ← required windows, ← required recorded, ← required failures⟩, ← required startedAt,
        ← required seconds⟩
    | _ => none

/-- Saves the counters. -/
def CounterSnapshot.save (s : CounterSnapshot) (p : Path) (tree : FileTree) :
    Except FileError Unit × FileTree :=
  tree.writeWithParents p (Bytes.ofText (Stored.pretty s))

end EventCamera
