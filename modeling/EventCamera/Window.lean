import EventCamera.Frame
/-!
# Windows

A window is the half-open slice `[start, stop)` of sensor time that is being drawn into one frame.
Windows follow each other without a gap: the next one starts where the last one stopped, however
late the next event comes. Whether the raw events are kept is settled when the window opens.

The sensor clock ends at `Timestamp.last`. A window that reaches this limit is never closed by an
event, so the clock cannot wrap; `closePast` therefore ends for every event time.
-/

namespace EventCamera

/-- Length of a window: between one microsecond and one hour. -/
structure WindowLength where
  micros : Int64
  one_le : 1 ≤ micros.toInt
  le_hour : micros.toInt ≤ 3600000000

namespace WindowLength

/-- The longest window, in microseconds. -/
def hour : Int64 := 3600000000

/-- The window length nearest to the requested one. -/
def clamp (micros : Int64) : WindowLength :=
  if h₁ : micros.toInt < 1 then ⟨1, by decide, by decide⟩
  else if h₂ : 3600000000 < micros.toInt then ⟨3600000000, by decide, by decide⟩
  else ⟨micros, by omega, by omega⟩

def standard : WindowLength := ⟨2000, by decide, by decide⟩

instance : Inhabited WindowLength := ⟨standard⟩

end WindowLength

namespace Timestamp

/-- The time one window length later, or the end of the clock. -/
def plus (t : Timestamp) (d : WindowLength) : Timestamp :=
  if t.toInt + d.micros.toInt ≤ last.toInt then t + d.micros else last

theorem toInt_last : last.toInt = 9223372036854775807 := by decide

theorem toInt_plus (t : Timestamp) (d : WindowLength) :
    (t.plus d).toInt = min (t.toInt + d.micros.toInt) last.toInt := by
  have h₁ := d.one_le
  have h₂ := t.minValue_le_toInt
  unfold plus
  split
  · next h =>
    have h₃ : last.toInt = 9223372036854775807 := toInt_last
    have h₄ : Int64.minValue.toInt = -9223372036854775808 := by decide
    rw [Int64.toInt_add, Int.bmod_eq_of_le (by omega) (by omega)]
    omega
  · omega

theorem lt_plus {t : Timestamp} (d : WindowLength) (h : t < last) : t < t.plus d := by
  rw [Int64.lt_iff_toInt_lt] at h ⊢
  have h₁ := d.one_le
  rw [toInt_plus]
  omega

end Timestamp

/-- One slice of sensor time while it is being drawn. -/
structure Window where
  /-- Position since the last reset. -/
  index : UInt64
  start : Timestamp
  stop : Timestamp
  canvas : Frame
  /-- The events drawn so far, kept only while recording. -/
  events : Array Event
  /-- Whether this window is to be recorded, settled when it opened. -/
  recording : Bool
  touched : Bool
  deriving DecidableEq, Repr, Inhabited

namespace Window

/-- The window that opens at `start`, with nothing drawn. -/
def fresh (d : WindowLength) (g : Geometry) (index : UInt64) (start : Timestamp) (recording : Bool) :
    Window where
  index := index
  start := start
  stop := start.plus d
  canvas := Frame.blank g
  events := #[]
  recording := recording
  touched := false

def contains (w : Window) (t : Timestamp) : Bool := w.start ≤ t && t < w.stop

def isEmpty (w : Window) : Bool := !w.touched

/-- The window that follows without a gap. The canvas is cleared only if something was drawn. -/
def advance (d : WindowLength) (recording : Bool) (w : Window) : Window where
  index := w.index + 1
  start := w.stop
  stop := w.stop.plus d
  canvas := if w.touched then w.canvas.clear else w.canvas
  events := #[]
  recording := recording
  touched := false

/-- Draws an event, keeps it while recording, and tells whether it was on the sensor. An event off
the sensor leaves the window as it is. -/
def add (e : Event) (w : Window) : Bool × Window :=
  match w with
  | ⟨index, start, stop, canvas, events, recording, touched⟩ =>
    match canvas.mark e.x e.y with
    | (true, canvas) =>
      (true, ⟨index, start, stop, canvas, if recording then events.push e else events, recording, true⟩)
    | (false, canvas) => (false, ⟨index, start, stop, canvas, events, recording, touched⟩)

/-- Whether an event at time `t` closes the window: it lies past the end, and the end is not the
end of the clock. -/
def Closes (w : Window) (t : Timestamp) : Prop := w.stop ≤ t ∧ w.stop < Timestamp.last

instance (w : Window) (t : Timestamp) : Decidable (w.Closes t) :=
  inferInstanceAs (Decidable (_ ∧ _))

theorem stop_lt_stop_advance {w : Window} (d : WindowLength) (recording : Bool)
    (h : w.stop < Timestamp.last) : w.stop < (w.advance d recording).stop :=
  Timestamp.lt_plus d h

/-- Closes windows until one is reached that an event at time `t` does not close. The closed ones
are added to `closed` in order, and the window reached is returned. -/
def closePast (d : WindowLength) (recording : Bool) (t : Timestamp) (w : Window)
    (closed : Array Window) : Array Window × Window :=
  if _h : w.Closes t then
    closePast d recording t (w.advance d recording) (closed.push w)
  else (closed, w)
termination_by (Timestamp.last.toInt - w.stop.toInt).toNat
decreasing_by
  have h₁ := Int64.lt_iff_toInt_lt.1 _h.2
  have h₂ := Int64.lt_iff_toInt_lt.1 (stop_lt_stop_advance d recording _h.2)
  omega

theorem closePast_of_closes {d : WindowLength} {recording : Bool} {t : Timestamp} {w : Window}
    (closed : Array Window) (h : w.Closes t) :
    closePast d recording t w closed = closePast d recording t (w.advance d recording) (closed.push w) := by
  rw [closePast, dif_pos h]

theorem closePast_of_not_closes {d : WindowLength} {recording : Bool} {t : Timestamp} {w : Window}
    (closed : Array Window) (h : ¬w.Closes t) :
    closePast d recording t w closed = (closed, w) := by
  rw [closePast, dif_neg h]

@[simp] theorem start_advance (d : WindowLength) (recording : Bool) (w : Window) :
    (w.advance d recording).start = w.stop := rfl

@[simp] theorem index_advance (d : WindowLength) (recording : Bool) (w : Window) :
    (w.advance d recording).index = w.index + 1 := rfl

end Window

end EventCamera
