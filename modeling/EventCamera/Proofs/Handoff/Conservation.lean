import EventCamera.Shared
import Mathlib
/-!
# Conservation of batches

Any number of callers push, pop, clear and wake at the queue, and between their attempts the control state
changes. A call that has to wait changes nothing until it finishes, so here a run is a list of attempts and
changes, where an attempt finishes its call or leaves everything as it was. `batches_conserved`: whatever the
list, the batches appended are those removed followed by those still queued, and the two counters agree.

A change within a push belongs to the finer steps of `Handover`, in the module on wake-ups, where a push reads
twice whether its session is accepted. There the bound need not hold: a session that is refused at the first
reading and accepted at the second lets a batch in without a look for a free place.
-/

namespace EventCamera

/-! ## Finished calls -/

/-- What can happen at the queue: an attempt of a call, or a change of the control state. -/
inductive QueueAction where
  | push (b : Batch)
  | pop
  | clear
  | wakeAll
  | write (w : Control.Write)

/-- A finished call with its answer. Beside the number that a clear answers stand the batches it found. -/
inductive QueueEntry where
  | pushed (b : Batch) (outcome : PushOutcome)
  | popped (batch : Option Batch)
  | cleared (answer : Nat) (batches : List Batch)

namespace QueueEntry

/-- The batches that the call appended. -/
def appended : QueueEntry → List Batch
  | pushed b .enqueued => [b]
  | _ => []

/-- The batches that the call took from the front. -/
def removed : QueueEntry → List Batch
  | popped batch => batch.toList
  | cleared _ batches => batches
  | _ => []

def handedOut : QueueEntry → Nat
  | popped (some _) => 1
  | _ => 0

def thrownAway : QueueEntry → Nat
  | cleared answer _ => answer
  | _ => 0

def turnedAway : QueueEntry → Nat
  | pushed _ .dropped => 1
  | _ => 0

/-- What a finished call answers for: the queue it found, the queue it left, and the counters. -/
structure Accounts (e : QueueEntry) (before after : Shared) : Prop where
  capacity : after.queue.capacity = before.queue.capacity
  size_le : before.queue.size ≤ before.queue.capacity → after.queue.size ≤ before.queue.capacity
  order : before.queue.batches ++ e.appended = e.removed ++ after.queue.batches
  removals : e.removed.length = e.handedOut + e.thrownAway
  enqueued : after.counters.enqueued = before.counters.enqueued + UInt64.ofNat e.appended.length
  dropped : after.counters.dropped = before.counters.dropped + UInt64.ofNat (e.turnedAway + e.thrownAway)

variable {s s' : Shared}

theorem accounts_push {b : Batch} {outcome : PushOutcome} (h : s.push? b = some (outcome, s')) :
    (pushed b outcome).Accounts s s' := by
  rcases s.push?_cases b with ⟨-, -, hp⟩ | ⟨-, hroom, hp⟩ | ⟨-, hp⟩ <;> rw [hp] at h
  · cases h
  · cases h
    refine ⟨rfl, fun _ => ?_, rfl, rfl, rfl, (UInt64.add_zero _).symm⟩
    simpa [HandoffQueue.size, Nat.succ_le_iff] using hroom
  · cases h
    exact ⟨rfl, id, List.append_nil _, rfl, (UInt64.add_zero _).symm, rfl⟩

theorem accounts_pop {batch : Option Batch} (h : s.pop? = some (batch, s')) :
    (popped batch).Accounts s s' := by
  rcases s.pop?_cases with ⟨-, -, hp⟩ | ⟨b, rest, -, hb, hp⟩ | ⟨-, hp⟩ <;> rw [hp] at h
  · cases h
  · cases h
    refine ⟨rfl, fun hle => ?_, ?_, rfl, (UInt64.add_zero _).symm, (UInt64.add_zero _).symm⟩
    · rw [HandoffQueue.size, hb] at hle
      exact Nat.le_of_succ_le hle
    · rw [hb]
      exact List.append_nil _
  · cases h
    exact ⟨rfl, id, List.append_nil _, rfl, (UInt64.add_zero _).symm, (UInt64.add_zero _).symm⟩

theorem accounts_clear (s : Shared) :
    (cleared s.clearQueue.1 s.queue.batches).Accounts s s.clearQueue.2 := by
  rw [Shared.clearQueue_eq]
  refine ⟨rfl, fun _ => Nat.zero_le _, rfl, (Nat.zero_add _).symm, (UInt64.add_zero _).symm, ?_⟩
  exact congrArg (fun n => s.counters.dropped + UInt64.ofNat n) (Nat.zero_add _).symm

end QueueEntry

/-! ## Runs at the queue -/

/-- The shared state, and the calls finished so far in order. -/
structure QueueRun where
  shared : Shared
  log : List QueueEntry

namespace QueueRun

/-- An empty queue and zero counters, under any control state. -/
def opened (capacity : Nat) (s : Shared) : QueueRun :=
  ⟨{ s with queue := .new capacity, counters := .zero }, []⟩

/-- A call finishes and leaves the shared state `s`. -/
def finish (r : QueueRun) (s : Shared) (e : QueueEntry) : QueueRun := ⟨s, r.log ++ [e]⟩

/-- One action. A wake makes sleeping calls look again, which are actions of their own. -/
def act (r : QueueRun) : QueueAction → QueueRun
  | .push b =>
    match r.shared.push? b with
    | none => r
    | some (outcome, s) => r.finish s (.pushed b outcome)
  | .pop =>
    match r.shared.pop? with
    | none => r
    | some (batch, s) => r.finish s (.popped batch)
  | .clear => r.finish r.shared.clearQueue.2 (.cleared r.shared.clearQueue.1 r.shared.queue.batches)
  | .wakeAll => r
  | .write w => { r with shared := r.shared.write [w] }

def appended (r : QueueRun) : List Batch := r.log.flatMap QueueEntry.appended

def removed (r : QueueRun) : List Batch := r.log.flatMap QueueEntry.removed

/-- The sum of a number over the finished calls. -/
def total (f : QueueEntry → Nat) (r : QueueRun) : Nat := (r.log.map f).sum

variable {places : Nat} {r : QueueRun}

theorem appended_finish (s : Shared) (e : QueueEntry) :
    (r.finish s e).appended = r.appended ++ e.appended := by
  simp [appended, finish]

theorem removed_finish (s : Shared) (e : QueueEntry) :
    (r.finish s e).removed = r.removed ++ e.removed := by
  simp [removed, finish]

theorem total_finish (f : QueueEntry → Nat) (s : Shared) (e : QueueEntry) :
    (r.finish s e).total f = r.total f + f e := by
  simp [total, finish]

open QueueEntry (handedOut thrownAway turnedAway)

/-- The account of a run with the given number of places. -/
structure Balanced (places : Nat) (r : QueueRun) : Prop where
  capacity : r.shared.queue.capacity = places
  size_le : r.shared.queue.size ≤ places
  order : r.appended = r.removed ++ r.shared.queue.batches
  removals : r.removed.length = r.total handedOut + r.total thrownAway
  enqueued : r.shared.counters.enqueued = UInt64.ofNat r.appended.length
  dropped : r.shared.counters.dropped = UInt64.ofNat (r.total turnedAway + r.total thrownAway)

theorem balanced_opened (capacity : Nat) (s : Shared) : (opened capacity s).Balanced (max capacity 1) where
  capacity := rfl
  size_le := Nat.zero_le _
  order := rfl
  removals := rfl
  enqueued := rfl
  dropped := rfl

/-- A call that answers for itself keeps the account of the run. -/
theorem Balanced.finish (h : r.Balanced places) {s : Shared} {e : QueueEntry}
    (he : e.Accounts r.shared s) : (r.finish s e).Balanced places where
  capacity := he.capacity.trans h.capacity
  size_le := h.capacity ▸ he.size_le (h.capacity ▸ h.size_le)
  order := by
    rw [appended_finish, removed_finish, h.order, List.append_assoc, he.order, List.append_assoc]
    rfl
  removals := by
    rw [removed_finish, total_finish, total_finish, List.length_append, h.removals, he.removals]
    omega
  enqueued := by
    rw [appended_finish, List.length_append, UInt64.ofNat_add, ← h.enqueued]
    exact he.enqueued
  dropped := by
    rw [total_finish, total_finish, Nat.add_add_add_comm, UInt64.ofNat_add, ← h.dropped]
    exact he.dropped

/-- Every action keeps the account. -/
theorem Balanced.act (h : r.Balanced places) (a : QueueAction) : (r.act a).Balanced places := by
  cases a with
  | push b =>
    rw [QueueRun.act]
    split
    · exact h
    · next hp => exact h.finish (QueueEntry.accounts_push hp)
  | pop =>
    rw [QueueRun.act]
    split
    · exact h
    · next hp => exact h.finish (QueueEntry.accounts_pop hp)
  | clear => exact h.finish (QueueEntry.accounts_clear r.shared)
  | wakeAll => exact h
  | write w => exact ⟨h.capacity, h.size_le, h.order, h.removals, h.enqueued, h.dropped⟩

/-- The account holds after every run. -/
theorem Balanced.foldl (h : r.Balanced places) (actions : List QueueAction) :
    (actions.foldl QueueRun.act r).Balanced places := by
  induction actions generalizing r with
  | nil => exact h
  | cons a rest ih => exact ih (h.act a)

/-- Bounded, in order, nothing lost and all accounted for: whatever happens at a queue that was
opened with `capacity` requested places. -/
theorem batches_conserved (capacity : Nat) (s : Shared) (actions : List QueueAction) :
    let r := actions.foldl act (opened capacity s)
    r.shared.queue.capacity = max capacity 1 ∧ r.shared.queue.size ≤ max capacity 1 ∧
    r.appended = r.removed ++ r.shared.queue.batches ∧
    r.removed.length = r.total handedOut + r.total thrownAway ∧
    (∀ b, match r.shared.push? b with
      | none => r.shared.control.accepts b.session = true ∧ r.shared.queue.size = max capacity 1
      | some (.enqueued, after) => r.shared.control.accepts b.session = true ∧
          after.queue = { r.shared.queue with batches := r.shared.queue.batches ++ [b] }
      | some (.dropped, after) => r.shared.control.accepts b.session = false ∧
          after.queue = r.shared.queue) ∧
    r.shared.counters.enqueued =
      UInt64.ofNat (r.total handedOut + r.total thrownAway + r.shared.queue.size) ∧
    r.shared.counters.dropped = UInt64.ofNat (r.total turnedAway + r.total thrownAway) := by
  intro r
  have h : r.Balanced (max capacity 1) := (balanced_opened capacity s).foldl actions
  refine ⟨h.capacity, h.size_le, h.order, h.removals, fun b => ?_, ?_, h.dropped⟩
  · rcases r.shared.push?_cases b with ⟨ha, hfull, hp⟩ | ⟨ha, -, hp⟩ | ⟨ha, hp⟩ <;> rw [hp]
    · have hle := h.size_le
      rw [h.capacity] at hfull
      exact ⟨ha, by omega⟩
    · exact ⟨ha, rfl⟩
    · exact ⟨ha, rfl⟩
  · rw [h.enqueued, h.order, List.length_append, h.removals]
    rfl

end QueueRun

end EventCamera
