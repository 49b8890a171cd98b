import EventCamera.Console.Interpreter
import EventCamera.Proofs.Engine.Steps
/-!
# Console, camera and engine at work together

The three parties in atomic steps, in any order. The console works through commands that switch the
camera on and off, one control write or queue operation at a time; the camera pushes batches stamped
with the session it was started in; the engine takes the steps of its `Worker`. `Parties.act` is one
move of one party, and a move that is not possible changes nothing.

`shared_acquisitionOn` and `shared_acquisitionOff`: without interference the console's steps do what
its commands do.
-/

namespace EventCamera

/-! ## The console -/

/-- One step of a command. -/
inductive ConsoleStep where
  | write (w : Control.Write)
  | clear
  /-- Wait until the camera does not deliver any more. -/
  | join
  /-- Let the camera of the current session deliver. -/
  | start
  deriving DecidableEq, Repr

namespace ConsoleStep

/-- Switches a camera on that starts or fails to. -/
def opening (g : Geometry) (starts : Bool) : List ConsoleStep :=
  (Control.acquisitionWrites g).map write ++
    bif starts then [start] else [write (.acquisition false), write .requestReset]

/-- Switches the camera off. The first clear lets a delivery go on that sleeps at the queue. -/
def closing : List ConsoleStep := [write (.acquisition false), clear, join, clear, write .requestReset]

def ending : List ConsoleStep := [write .shutdown, write (.acquisition false), join]

def effect (s : Shared) : ConsoleStep → Shared
  | write w => s.write [w]
  | clear => s.clearQueue.2
  | join | start => s

theorem foldl_effect_write (ws : List Control.Write) (s : Shared) :
    (ws.map write).foldl effect s = s.write ws := by
  rw [List.foldl_map]
  induction ws generalizing s with
  | nil => rfl
  | cons w rest ih => rw [List.foldl_cons, ih]; rfl

end ConsoleStep

namespace Desk

variable {δ : Type}

theorem shared_acquisitionOff (d : Desk δ) (h : d.shared.control.acquisition = true) :
    d.acquisitionOff.2.shared = ConsoleStep.closing.foldl ConsoleStep.effect d.shared := by
  rw [acquisitionOff, if_pos h]
  rfl

theorem shared_shutdown (d : Desk δ) :
    d.shutdown.shared = ConsoleStep.ending.foldl ConsoleStep.effect d.shared := rfl

/-- The camera starts exactly if the command succeeds. -/
theorem shared_acquisitionOn [BiasFacility δ] (d : Desk δ) (h : d.shared.control.acquisition = false)
    {source : Source δ} {provider : Provider δ}
    (hopen : d.interpreter.provider.openFirst = (.ok source, provider)) :
    d.acquisitionOn.2.shared =
      (ConsoleStep.opening source.geometry d.acquisitionOn.1.isOk).foldl ConsoleStep.effect d.shared := by
  rw [acquisitionOn, if_neg (by simp [h]), hopen, ConsoleStep.opening, List.foldl_append,
    ConsoleStep.foldl_effect_write]
  dsimp only
  generalize prepareBiases _ source = prepared
  obtain ⟨lines, interpreter, source⟩ := prepared
  dsimp only
  cases source.start <;> rfl

end Desk

/-! ## Moves -/

/-- A camera that delivers for a session, and what it is pushing. -/
structure Camera where
  session : SessionId
  pushing : Option (List Event)
  deriving DecidableEq, Repr

/-- The engine, the steps that the console has still to do, and the camera if one delivers. -/
structure Parties where
  worker : Worker
  console : List ConsoleStep
  camera : Option Camera

/-- One move of one party. -/
inductive Move where
  /-- The console begins to switch a camera on. -/
  | switchOn (g : Geometry) (starts : Bool)
  | switchOff
  | shutDown
  | console
  /-- A flag that has nothing to do with the camera changes: recording, or a shutdown by signal. -/
  | set (w : Control.Write)
  | deliver (events : List Event)
  /-- The camera tries to push what it delivers. -/
  | push
  | engine
  deriving DecidableEq, Repr

/-- Whether the write can come from elsewhere than a command that switches the camera. -/
def Control.Write.sparesCamera : Write → Bool
  | .shutdown | .recording _ | .requestRecordingReset | .recordingDir _ => true
  | .acquisition _ | .requestReset | .beginSession | .width _ | .height _ => false

namespace Parties

/-- An engine that has seen nothing, an idle console and no camera. The rest of the shared state is as
it may be. -/
def start (length : WindowLength) (capacity : Nat) (s : Shared) : Parties :=
  ⟨.start length { s with control := .initial, queue := .new capacity }, [], none⟩

def shared (s : Parties) : Shared := s.worker.pipeline.shared

def setShared (shared : Shared) (s : Parties) : Parties := { s with worker.pipeline.shared := shared }

/-- The console does a step and has `rest` still to do. It waits at a join while the camera pushes. -/
def perform (rest : List ConsoleStep) (s : Parties) : ConsoleStep → Parties
  | .write w => { s.setShared (ConsoleStep.effect s.shared (.write w)) with console := rest }
  | .clear => { s.setShared (ConsoleStep.effect s.shared .clear) with console := rest }
  | .join =>
    match s.camera with
    | some ⟨_, some _⟩ => s
    | _ => { s with console := rest, camera := none }
  | .start => { s with console := rest, camera := some ⟨s.shared.control.session, none⟩ }

/-- The console begins a command if it has none and the camera is on as the command needs it. -/
def begin (command : List ConsoleStep) (possible : Bool) (s : Parties) : Parties :=
  if s.console = [] ∧ possible then { s with console := command } else s

def act (s : Parties) : Move → Parties
  | .switchOn g starts => s.begin (ConsoleStep.opening g starts) !s.shared.control.acquisition
  | .switchOff => s.begin ConsoleStep.closing s.shared.control.acquisition
  | .shutDown => s.begin ConsoleStep.ending true
  | .console =>
    match s.console with
    | [] => s
    | step :: rest => s.perform rest step
  | .set w => if w.sparesCamera then s.setShared (s.shared.write [w]) else s
  | .deliver events =>
    match s.camera with
    | some ⟨session, none⟩ => { s with camera := some ⟨session, some events⟩ }
    | _ => s
  | .push =>
    match s.camera with
    | some ⟨session, some events⟩ =>
      match s.shared.push? ⟨session, events⟩ with
      | none => s
      | some (_, shared) => { s.setShared shared with camera := some ⟨session, none⟩ }
    | _ => s
  | .engine =>
    match s.worker.step? with
    | none => s
    | some worker => { s with worker }

def run (s : Parties) (moves : List Move) : Parties := moves.foldl act s

end Parties

end EventCamera
