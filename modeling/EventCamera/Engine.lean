import EventCamera.Recording.Recorder
import EventCamera.Shared
import EventCamera.Window.Manager
/-!
# Engine

The engine is the only consumer of the queue and the only owner of window state. Before each batch it
takes pending resets; a batch of another session is dropped; the events of the others are fed one at
a time. Each closed window is recorded if it opened while recording, then published.

The recording flag is read for every event, and the directory for every closed window, so commands
take effect in the middle of a batch.
-/

namespace EventCamera

/-- The state that only the engine uses. -/
structure Engine where
  manager : WindowManager
  recorder : Recorder

/-- The engine at work on the shared state. -/
structure Pipeline where
  shared : Shared
  engine : Engine

namespace Pipeline

/-- An engine that has seen nothing and takes the sensor size from the control state. -/
def start (length : WindowLength) (s : Shared) : Pipeline :=
  ⟨s, ⟨.new length s.control.geometry, .new⟩⟩

instance : Inhabited Pipeline := ⟨start default default⟩

def change (f : Shared → Shared) (p : Pipeline) : Pipeline := { p with shared := f p.shared }

/-! ## Resets -/

/-- Takes a session reset, if one is pending: the current window is dropped and the sensor size read
anew. -/
def applyReset (p : Pipeline) : Pipeline :=
  match p.shared.control.takeReset with
  | (false, control) => { p with shared.control := control }
  | (true, control) =>
    { p with shared.control := control, engine.manager := p.engine.manager.setGeometry control.geometry }

/-- Takes a recording reset, if one is pending: the next file is number one. -/
def applyRecordingReset (p : Pipeline) : Pipeline :=
  match p.shared.control.takeRecordingReset with
  | (false, control) => { p with shared.control := control }
  | (true, control) => { p with shared.control := control, engine.recorder := .new }

/-- Takes all pending resets. A camera that is opened again goes on with the numbers of the run. -/
def applyResets (p : Pipeline) : Pipeline := p.applyReset.applyRecordingReset

/-! ## Events -/

/-- Records a closed window if it opened while recording. Without a directory it counts as failed. -/
def recordWindow (w : Window) : Recorder × Shared → Recorder × Shared
  | (recorder, s) =>
    if w.recording then
      match s.control.recordingDir with
      | none => (recorder, s.count .addFailure)
      | some dir =>
        match recorder.write dir w s.files with
        | (.ok _, recorder, files) => (recorder, { s with files }.count .addRecorded)
        | (.error _, recorder, files) => (recorder, { s with files }.count .addFailure)
    else (recorder, s)

def publishWindow (w : Window) (s : Shared) : Shared :=
  { s with latest := some ⟨⟨w.index, w.start⟩, w.canvas⟩ }.count .addWindow

def finishWindow (state : Recorder × Shared) (w : Window) : Recorder × Shared :=
  match recordWindow w state with
  | (recorder, s) => (recorder, publishWindow w s)

def countOutcome : Outcome → Shared → Shared
  | .outOfBounds, s => s.count .addOutOfBounds
  | .accepted, s | .noGeometry, s => s

def feed : Pipeline → Event → Pipeline
  | ⟨s, ⟨manager, recorder⟩⟩, e =>
    match manager.process e s.control.recording with
    | ⟨closed, outcome, manager⟩ =>
      match closed.foldl finishWindow (recorder, s) with
      | (recorder, s) => ⟨countOutcome outcome s, ⟨manager, recorder⟩⟩

/-! ## Batches -/

def processBatch (b : Batch) (p : Pipeline) : Pipeline :=
  let p := p.applyResets
  if b.session = p.shared.control.session then
    b.events.foldl feed (p.change (·.count (.addEvents b.size.toUInt64)))
  else p.change (·.count (.addDropped 1))

/-- How one round of the engine ended. -/
inductive Round where
  /-- The pop has to wait. -/
  | waits
  | stopped
  | processed
  deriving DecidableEq, Repr

/-- One round: take resets, take a batch, process it. -/
def round (p : Pipeline) : Round × Pipeline :=
  let p := p.applyResets
  match p.shared.pop? with
  | none => (.waits, p)
  | some (none, s) => (.stopped, { p with shared := s })
  | some (some b, s) => (.processed, processBatch b { p with shared := s })

end Pipeline

end EventCamera
