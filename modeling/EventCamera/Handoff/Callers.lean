import EventCamera.Shared
/-!
# Callers of the queue

At most one call sleeps at the queue, a push on a full one or a pop on an empty one. Whenever
something changed, the sleeper looks again and either finishes or goes on sleeping. A push that
would have to sleep beside another sleeper, and a pop beside a sleeping pop, is turned away.
-/

namespace EventCamera

/-- The call that sleeps at the queue. -/
inductive Sleeper where
  | push (b : Batch)
  | pop
  deriving DecidableEq, Repr

inductive CallResult where
  | pushed (outcome : PushOutcome)
  | popped (batch : Option Batch)
  deriving DecidableEq, Repr

inductive CallAnswer where
  | finished (result : CallResult)
  /-- The call sleeps from now on. -/
  | asleep
  | busy
  deriving DecidableEq, Repr

namespace Sleeper

/-- One attempt of a call. -/
def attempt? (call : Sleeper) (s : Shared) : Option (CallResult × Shared) :=
  match call with
  | push b => (s.push? b).map fun (outcome, s) => (.pushed outcome, s)
  | pop => s.pop?.map fun (batch, s) => (.popped batch, s)

end Sleeper

/-- The shared state together with the call that sleeps at the queue, if any. -/
structure Callers where
  shared : Shared
  sleeper : Option Sleeper
  deriving Inhabited

namespace Callers

def call (request : Sleeper) (c : Callers) : CallAnswer × Callers :=
  if request = .pop ∧ c.sleeper = some .pop then (.busy, c)
  else match request.attempt? c.shared with
    | some (result, shared) => (.finished result, { c with shared })
    | none => if c.sleeper.isSome then (.busy, c) else (.asleep, { c with sleeper := some request })

/-- Lets the sleeper look again. -/
def wake (c : Callers) : Option CallResult × Callers :=
  match c.sleeper with
  | none => (none, c)
  | some sleeper =>
    match sleeper.attempt? c.shared with
    | some (result, shared) => (some result, ⟨shared, none⟩)
    | none => (none, c)

end Callers

end EventCamera
