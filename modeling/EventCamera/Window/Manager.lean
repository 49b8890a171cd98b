import EventCamera.Window
/-!
# Partition of the event stream

The manager holds the current window and feeds it one event at a time. The first event opens a
window at its own time. An event past the end closes the current window and every window it
skipped, empty ones included, so the cadence never breaks. Late events are drawn into the current
window. Indices count up from zero since the last reset, also across a flush.
-/

namespace EventCamera

inductive Outcome where
  | accepted
  /-- Off the sensor: neither drawn nor kept, though it may have opened or closed windows. -/
  | outOfBounds
  /-- The sensor has no pixels, so there is nothing to draw on. -/
  | noGeometry
  deriving DecidableEq, Repr, Inhabited

/-- The partition of the stream so far. -/
structure WindowManager where
  length : WindowLength
  geometry : Geometry
  current : Option Window
  nextIndex : UInt64

namespace WindowManager

def new (length : WindowLength) (g : Geometry) : WindowManager := ⟨length, g, none, 0⟩

instance : Inhabited WindowManager := ⟨new default default⟩

/-- Discards the current window and restarts the indices. -/
def reset (m : WindowManager) : WindowManager := { m with current := none, nextIndex := 0 }

/-- Changes the sensor size, which also resets. -/
def setGeometry (g : Geometry) (m : WindowManager) : WindowManager := { m with geometry := g }.reset

/-- What feeding one event gives: the windows it closed in order, what became of it, and the manager
after it. -/
structure Step where
  closed : Array Window
  outcome : Outcome
  manager : WindowManager

/-- Feeds one event. The recording flag is taken over by the windows that open on the way. -/
def process (event : Event) (recording : Bool) (m : WindowManager) : Step :=
  match m with
  | ⟨length, geometry, current, nextIndex⟩ =>
    if geometry.isEmpty then ⟨#[], .noGeometry, ⟨length, geometry, current, nextIndex⟩⟩
    else
      let (closed, reached) := match current with
        | some w => w.closePast length recording event.t #[]
        | none => (#[], .fresh length geometry nextIndex event.t recording)
      let index := reached.index
      let (drawn, window) := reached.add event
      ⟨closed, if drawn then .accepted else .outOfBounds, ⟨length, geometry, some window, index + 1⟩⟩

/-- Closes the current window early. The indices go on from there. -/
def flush (m : WindowManager) : Option Window × WindowManager :=
  (m.current, { m with current := none })

end WindowManager

end EventCamera
