import EventCamera.Files.Path
import EventCamera.Sensor
/-!
# Control state

The flags and session data that the console writes and the camera and the engine read. Every field
is written on its own, so a command is a sequence of `Write`s and another party may read between two
of them; in particular a change of size is two writes. A reset request stays until the engine takes
it.
-/

namespace EventCamera

/-- The shared flags and session data. -/
structure Control where
  /-- False once shutdown has been requested. -/
  running : Bool
  acquisition : Bool
  recording : Bool
  /-- The engine is asked to drop its current window. -/
  resetRequested : Bool
  /-- The engine is asked to number recorded files from one again. -/
  recordingResetRequested : Bool
  session : SessionId
  width : UInt32
  height : UInt32
  recordingDir : Option Path
  deriving DecidableEq, Repr, Inhabited

/-- One atomic change of the control state. -/
inductive Control.Write where
  | shutdown
  | acquisition (on : Bool)
  | recording (on : Bool)
  | requestReset
  | requestRecordingReset
  | beginSession
  | width (w : UInt32)
  | height (h : UInt32)
  | recordingDir (dir : Option Path)
  deriving DecidableEq, Repr

namespace Control

def initial : Control where
  running := true
  acquisition := false
  recording := false
  resetRequested := false
  recordingResetRequested := false
  session := 0
  width := 0
  height := 0
  recordingDir := none

def write (c : Control) : Write → Control
  | .shutdown => { c with running := false }
  | .acquisition on => { c with acquisition := on }
  | .recording on => { c with recording := on }
  | .requestReset => { c with resetRequested := true }
  | .requestRecordingReset => { c with recordingResetRequested := true }
  | .beginSession => { c with session := c.session + 1 }
  | .width w => { c with width := w }
  | .height h => { c with height := h }
  | .recordingDir dir => { c with recordingDir := dir }

def writeAll (c : Control) (ws : List Write) : Control := ws.foldl write c

/-- The sensor size as it can be read now. -/
def geometry (c : Control) : Geometry := ⟨c.width, c.height⟩

/-- Whether a batch of the given session may still enter the pipeline. -/
def accepts (c : Control) (session : SessionId) : Bool :=
  c.running && c.acquisition && c.session == session

/-- Takes a pending reset request, so that it is seen exactly once. -/
def takeReset (c : Control) : Bool × Control := (c.resetRequested, { c with resetRequested := false })

/-- Takes a pending request to number recorded files from one. -/
def takeRecordingReset (c : Control) : Bool × Control :=
  (c.recordingResetRequested, { c with recordingResetRequested := false })

def sizeWrites (g : Geometry) : List Write := [.width g.width, .height g.height]

/-- The writes by which an opened camera takes over. The session begins and the reset is requested
before any of its batches can be accepted. -/
def acquisitionWrites (g : Geometry) : List Write :=
  sizeWrites g ++ [.beginSession, .requestReset, .acquisition true]

/-- The writes by which a recording begins in its run directory. -/
def recordingWrites (dir : Path) : List Write :=
  [.recordingDir (some dir), .requestRecordingReset, .recording true]

theorem running_write_of_not_running {c : Control} (w : Write) (h : c.running = false) :
    (c.write w).running = false := by
  cases w <;> simp_all [write]

/-- Nothing is accepted after shutdown. -/
theorem accepts_of_not_running {c : Control} (s : SessionId) (h : c.running = false) :
    c.accepts s = false := by
  simp [accepts, h]

end Control

end EventCamera
