/-!
# What a sensor delivers

An event camera reports one event per pixel whose brightness changed: where, in which direction and
when. Events arrive in batches, each stamped with the acquisition session it was produced in.
Coordinates are 16-bit, sizes 32-bit and times 64-bit, as the sensors report them, so a size can
exceed what a coordinate can address.
-/

namespace EventCamera

/-- Microseconds on the sensor clock. -/
abbrev Timestamp := Int64

/-- The latest time the sensor clock can tell. -/
def Timestamp.last : Timestamp := Int64.maxValue

/-- Direction of the brightness change behind an event. -/
inductive Polarity where
  /-- The pixel became darker. -/
  | off
  /-- The pixel became brighter. -/
  | on
  deriving DecidableEq, Repr, Inhabited

structure Event where
  x : UInt16
  y : UInt16
  polarity : Polarity
  t : Timestamp
  deriving DecidableEq, Repr, Inhabited

structure Geometry where
  width : UInt32
  height : UInt32
  deriving DecidableEq, Repr, Inhabited

namespace Geometry

/-- Whether the pixel `(x, y)` lies on the sensor. -/
def contains (g : Geometry) (x y : UInt16) : Bool :=
  x.toNat < g.width.toNat && y.toNat < g.height.toNat

def area (g : Geometry) : Nat := g.width.toNat * g.height.toNat

/-- A sensor with a zero side has no pixel at all. -/
def isEmpty (g : Geometry) : Bool := g.width == 0 || g.height == 0

theorem contains_iff (g : Geometry) (x y : UInt16) :
    g.contains x y = true ↔ x.toNat < g.width.toNat ∧ y.toNat < g.height.toNat := by
  simp [contains]

end Geometry

/-- Number of an acquisition session; the camera opens a new one each time it is switched on. -/
abbrev SessionId := UInt64

/-- The events of one delivery, stamped with the session they were produced in. -/
structure Batch where
  session : SessionId
  events : List Event
  deriving DecidableEq, Repr, Inhabited

namespace Batch

def size (b : Batch) : Nat := b.events.length

def isEmpty (b : Batch) : Bool := b.events.isEmpty

def firstTime? (b : Batch) : Option Timestamp := b.events.head?.map (·.t)

end Batch

end EventCamera
