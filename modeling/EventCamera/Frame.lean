import EventCamera.Sensor
/-!
# Frames

A frame is a single-channel picture of the sensor, one byte per pixel, row after row. A pixel is
either background or marked; marking is idempotent and refuses coordinates off the sensor.
-/

namespace EventCamera

/-- A picture of the sensor: the byte of pixel `(x, y)` is number `y * width + x`. -/
structure Frame where
  geometry : Geometry
  pixels : Array UInt8
  deriving DecidableEq, Repr, Inhabited

namespace Frame

/-- Value of a pixel that saw no event. -/
def background : UInt8 := 0

/-- Value of a pixel that saw an event. -/
def foreground : UInt8 := 255

/-- The frame of the given size without any mark. -/
def blank (g : Geometry) : Frame := ⟨g, Array.replicate g.area background⟩

/-- Row-major position of the pixel `(x, y)`, if it is on the sensor. -/
def index? (f : Frame) (x y : UInt16) : Option Nat :=
  if f.geometry.contains x y then some (y.toNat * f.geometry.width.toNat + x.toNat) else none

/-- Value of the pixel `(x, y)`, or nothing off the sensor. -/
def get? (f : Frame) (x y : UInt16) : Option UInt8 :=
  (f.index? x y).bind (f.pixels[·]?)

/-- Marks the pixel `(x, y)` and tells whether it is on the sensor. Off the sensor the frame stays as
it is. -/
def mark (f : Frame) (x y : UInt16) : Bool × Frame :=
  match f.index? x y with
  | some i => (true, ⟨f.geometry, f.pixels.setIfInBounds i foreground⟩)
  | none => (false, f)

def clear (f : Frame) : Frame := ⟨f.geometry, Array.replicate f.pixels.size background⟩

def litCount (f : Frame) : Nat := f.pixels.countP (· != background)

@[simp] theorem geometry_blank (g : Geometry) : (blank g).geometry = g := rfl

@[simp] theorem geometry_clear (f : Frame) : f.clear.geometry = f.geometry := rfl

@[simp] theorem size_pixels_blank (g : Geometry) : (blank g).pixels.size = g.area := by
  simp [blank]

@[simp] theorem size_pixels_clear (f : Frame) : f.clear.pixels.size = f.pixels.size := by
  simp [clear]

@[simp] theorem geometry_mark (f : Frame) (x y : UInt16) : (f.mark x y).2.geometry = f.geometry := by
  unfold mark
  split <;> rfl

@[simp] theorem size_pixels_mark (f : Frame) (x y : UInt16) :
    (f.mark x y).2.pixels.size = f.pixels.size := by
  unfold mark
  split <;> simp

@[simp] theorem fst_mark (f : Frame) (x y : UInt16) : (f.mark x y).1 = f.geometry.contains x y := by
  cases h : f.geometry.contains x y <;> simp [mark, index?, h]

/-- Off the sensor nothing changes. -/
theorem snd_mark_of_not_contains {f : Frame} {x y : UInt16} (h : f.geometry.contains x y = false) :
    (f.mark x y).2 = f := by
  simp [mark, index?, h]

end Frame

/-! ## Publication -/

/-- Which window a published frame shows. -/
structure Stamp where
  index : UInt64
  start : Timestamp
  deriving DecidableEq, Repr, Inhabited

/-- A frame as published, with the window it was drawn from. -/
structure Published where
  stamp : Stamp
  frame : Frame
  deriving DecidableEq, Repr, Inhabited

/-- The most recent published frame. Each publication replaces the one before it, so a reader may
skip frames. -/
abbrev LatestFrame := Option Published

namespace LatestFrame

/-- The published frame, unless it carries the stamp the reader saw last. -/
def newerThan (latest : LatestFrame) (seen : Option Stamp) : Option Published :=
  latest.filter fun p => seen != some p.stamp

end LatestFrame

end EventCamera
