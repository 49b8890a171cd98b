import EventCamera.Console.Loop
import EventCamera.Engine
import EventCamera.Handoff.Callers
/-!
# Session

The whole program in one state: the console with the shared state, the engine, and the camera
delivery that sleeps at the queue, if one does. A delivery that sleeps looks again after everything
that may let it go on.
-/

namespace EventCamera

/-- Console, engine and camera at work together. -/
structure Session (δ : Type) where
  console : Console δ
  engine : Engine
  /-- The delivery that sleeps at the queue. -/
  sleeper : Option Sleeper

inductive DeliveryAnswer where
  /-- No such source was ever opened. -/
  | noSource
  | busy
  | asleep
  | done
  deriving DecidableEq, Repr

namespace Session

variable {δ : Type}

def start (length : WindowLength) (d : Desk δ) : Session δ :=
  ⟨.new d, (Pipeline.start length d.shared).engine, none⟩

def shared (s : Session δ) : Shared := s.console.desk.shared

def setShared (shared : Shared) (s : Session δ) : Session δ :=
  { s with console := s.console.change fun _ => shared }

/-- The engine at work on the shared state. -/
def pipeline (s : Session δ) : Pipeline := ⟨s.shared, s.engine⟩

def setPipeline (p : Pipeline) (s : Session δ) : Session δ :=
  { s.setShared p.shared with engine := p.engine }

/-- Reads one console line and carries it out. Gives the lines to show. -/
def handleLine [BiasFacility δ] (line : String) (s : Session δ) : List String × Session δ :=
  match s.console.handleLine line with
  | (lines, console) => (lines, { s with console })

/-- Shows the latest frame if it is newer than the one shown last. -/
def refresh (s : Session δ) : Bool × Session δ :=
  match s.console.refresh with
  | (shown, console) => (shown, { s with console })

def interpreter (s : Session δ) : Interpreter δ := s.console.desk.interpreter

/-- Lets the sleeping delivery look again. -/
def wake (s : Session δ) : Session δ :=
  match (Callers.mk s.shared s.sleeper).wake with
  | (_, c) => { s.setShared c.shared with sleeper := c.sleeper }

/-- The source numbered `from?`, or the last one, delivers events. -/
def deliver (source? : Option Nat) (events : List Event) (s : Session δ) : DeliveryAnswer × Session δ :=
  let sessions := s.interpreter.subscriptions
  match sessions[source?.getD (sessions.length - 1)]? with
  | none => (.noSource, s)
  | some session =>
    if s.sleeper.isSome then (.busy, s)
    else if events.isEmpty then (.done, s)
    else
      match (Callers.mk s.shared none).call (.push ⟨session, events⟩) with
      | (.asleep, c) => (.asleep, { s.setShared c.shared with sleeper := c.sleeper })
      | (_, c) => (.done, s.setShared c.shared)

/-- At most `rounds` rounds of the engine while batches are queued. Tells how many were processed. -/
def drainUpTo : Nat → Session δ → Nat × Session δ
  | 0, s => (0, s)
  | rounds + 1, s =>
    if s.shared.queue.batches.isEmpty then (0, s)
    else match s.pipeline.round with
      | (.processed, p) =>
        match drainUpTo rounds (s.setPipeline p).wake with
        | (n, s) => (n + 1, s)
      | (_, p) => (0, s.setPipeline p)

/-- Lets the engine work until the queue is empty. -/
def drain (s : Session δ) : Nat × Session δ := drainUpTo (s.shared.queue.size + 1) s

/-- Leaves the console, which shuts everything down. -/
def leave (s : Session δ) : Session δ := { s with console := s.console.leave }.wake

end Session

end EventCamera
