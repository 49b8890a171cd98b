import EventCamera.Window
import Mathlib
/-!
# What a window shows

`Frame.raster` draws a list of events on a blank frame, and `pixel_raster` tells every byte of it.
`Window.Drawn` says that a window shows exactly the given events: its canvas is their raster and its
list holds those on the sensor, if the window is recorded. Opening, drawing and moving on each keep it,
and moving on leaves a window as if it had just been opened.
-/

namespace EventCamera

/-- Whether the event lies on the sensor. -/
def Geometry.sees (g : Geometry) (e : Event) : Bool := g.contains e.x e.y

namespace Frame

/-- The frame of the given size with the events drawn one after the other. -/
def raster (g : Geometry) (events : List Event) : Frame :=
  events.foldl (fun f e => (f.mark e.x e.y).2) (.blank g)

theorem raster_concat (g : Geometry) (events : List Event) (e : Event) :
    raster g (events ++ [e]) = ((raster g events).mark e.x e.y).2 := by
  simp [raster, List.foldl_append]

@[simp] theorem geometry_raster (g : Geometry) (events : List Event) : (raster g events).geometry = g := by
  induction events using List.reverseRecOn with
  | nil => rfl
  | append_singleton events e ih => rw [raster_concat, geometry_mark, ih]

@[simp] theorem size_pixels_raster (g : Geometry) (events : List Event) :
    (raster g events).pixels.size = g.area := by
  induction events using List.reverseRecOn with
  | nil => simp [raster]
  | append_singleton events e ih => rw [raster_concat, size_pixels_mark, ih]

/-- Clearing a raster gives the blank frame. -/
theorem clear_raster (g : Geometry) (events : List Event) : (raster g events).clear = blank g := by
  simp [clear, blank]

/-- An event off the sensor leaves no mark. -/
theorem raster_concat_of_not_sees {g : Geometry} {events : List Event} {e : Event} (h : g.sees e = false) :
    raster g (events ++ [e]) = raster g events := by
  rw [raster_concat, snd_mark_of_not_contains (by simpa [Geometry.sees] using h)]

/-- Drawing nothing that is on the sensor leaves the frame blank. -/
theorem raster_of_none_seen {g : Geometry} {events : List Event} (h : events.any g.sees = false) :
    raster g events = blank g := by
  induction events using List.reverseRecOn with
  | nil => rfl
  | append_singleton events e ih =>
    simp only [List.any_append, List.any_cons, List.any_nil, Bool.or_false, Bool.or_eq_false_iff] at h
    rw [raster_concat_of_not_sees h.2, ih h.1]

/-! ## Pixels -/

/-- Two pixels of one sensor lie at different positions. -/
theorem position_inj {w x y x' y' : Nat} (hx : x < w) (hx' : x' < w) (h : y * w + x = y' * w + x') :
    x = x' ∧ y = y' := by
  have hw : 0 < w := by omega
  have hy : y = y' := by
    have e := congrArg (· / w) h
    simp only [Nat.mul_comm _ w, Nat.mul_add_div hw, Nat.div_eq_of_lt hx, Nat.div_eq_of_lt hx'] at e
    omega
  subst hy
  exact ⟨by omega, rfl⟩

theorem position_lt_area {g : Geometry} {x y : Nat} (hx : x < g.width.toNat) (hy : y < g.height.toNat) :
    y * g.width.toNat + x < g.area := by
  have h : (y + 1) * g.width.toNat ≤ g.height.toNat * g.width.toNat := Nat.mul_le_mul_right _ hy
  rw [Nat.add_mul] at h
  rw [Geometry.area, Nat.mul_comm g.width.toNat]
  omega

/-- What marking does to each pixel of a frame of full size. -/
theorem pixel_mark {f : Frame} (hf : f.pixels.size = f.geometry.area) (e : Event) {x y : Nat}
    (hx : x < f.geometry.width.toNat) (hy : y < f.geometry.height.toNat) :
    (f.mark e.x e.y).2.pixels[y * f.geometry.width.toNat + x]? =
      if e.x.toNat = x ∧ e.y.toNat = y then some foreground
      else f.pixels[y * f.geometry.width.toNat + x]? := by
  have hlt := position_lt_area hx hy
  cases hc : f.geometry.contains e.x e.y with
  | true =>
    have hb := (Geometry.contains_iff _ _ _).1 hc
    simp only [mark, index?, hc, if_true]
    by_cases he : e.x.toNat = x ∧ e.y.toNat = y
    · rw [if_pos he, he.1, he.2, Array.getElem?_setIfInBounds_self_of_lt (by omega)]
    · rw [if_neg he, Array.getElem?_setIfInBounds_ne]
      intro h
      exact he (position_inj hb.1 hx h)
  | false =>
    rw [snd_mark_of_not_contains hc, if_neg]
    rintro ⟨rfl, rfl⟩
    simp [Geometry.contains, hx, hy] at hc

/-- A pixel of the raster is foreground exactly if one of the events is at it. -/
theorem pixel_raster (g : Geometry) (events : List Event) {x y : Nat} (hx : x < g.width.toNat)
    (hy : y < g.height.toNat) :
    (raster g events).pixels[y * g.width.toNat + x]? =
      some (if ∃ e ∈ events, e.x.toNat = x ∧ e.y.toNat = y then foreground else background) := by
  induction events using List.reverseRecOn with
  | nil => simp [raster, blank, position_lt_area hx hy]
  | append_singleton events e ih =>
    have h := pixel_mark (f := raster g events) (by simp) e (x := x) (y := y) (by simpa) (by simpa)
    rw [geometry_raster] at h
    rw [raster_concat, h, ih]
    by_cases he : e.x.toNat = x ∧ e.y.toNat = y
    · rw [if_pos he, if_pos ⟨e, by simp, he⟩]
    · simp [he]

end Frame

namespace Window

/-! ## Adding an event -/

/-- An event that the sensor sees is drawn, and kept if the window is recorded. -/
theorem add_of_sees {e : Event} {w : Window} (h : w.canvas.geometry.sees e = true) :
    w.add e = (true, { w with
      canvas := (w.canvas.mark e.x e.y).2
      events := if w.recording then w.events.push e else w.events
      touched := true }) := by
  obtain ⟨index, start, stop, canvas, events, recording, touched⟩ := w
  have hm : canvas.mark e.x e.y = (true, (canvas.mark e.x e.y).2) :=
    Prod.ext ((Frame.fst_mark _ _ _).trans h) rfl
  simp only [add]
  rw [hm]

/-- An event off the sensor leaves the window as it is. -/
theorem add_of_not_sees {e : Event} {w : Window} (h : w.canvas.geometry.sees e = false) :
    w.add e = (false, w) := by
  obtain ⟨index, start, stop, canvas, events, recording, touched⟩ := w
  have hm : canvas.mark e.x e.y = (false, canvas) :=
    Prod.ext ((Frame.fst_mark _ _ _).trans h) (Frame.snd_mark_of_not_contains h)
  simp only [add]
  rw [hm]

section
variable (e : Event) (w : Window)

/-- An event is drawn exactly if the sensor sees it. -/
@[simp] theorem fst_add : (w.add e).1 = w.canvas.geometry.sees e := by
  cases h : w.canvas.geometry.sees e <;> simp [add_of_sees, add_of_not_sees, h]

@[simp] theorem index_add : (w.add e).2.index = w.index := by
  cases h : w.canvas.geometry.sees e <;> simp [add_of_sees, add_of_not_sees, h]

@[simp] theorem start_add : (w.add e).2.start = w.start := by
  cases h : w.canvas.geometry.sees e <;> simp [add_of_sees, add_of_not_sees, h]

@[simp] theorem stop_add : (w.add e).2.stop = w.stop := by
  cases h : w.canvas.geometry.sees e <;> simp [add_of_sees, add_of_not_sees, h]

@[simp] theorem recording_add : (w.add e).2.recording = w.recording := by
  cases h : w.canvas.geometry.sees e <;> simp [add_of_sees, add_of_not_sees, h]

@[simp] theorem geometry_canvas_add : (w.add e).2.canvas.geometry = w.canvas.geometry := by
  cases h : w.canvas.geometry.sees e <;> simp [add_of_sees, add_of_not_sees, h]

end

/-! ## Windows that show given events -/

/-- The window shows exactly the given events. -/
structure Drawn (w : Window) (shown : List Event) : Prop where
  canvas : w.canvas = .raster w.canvas.geometry shown
  events : w.events.toList = if w.recording then shown.filter w.canvas.geometry.sees else []
  touched : w.touched = shown.any w.canvas.geometry.sees

theorem drawn_fresh (d : WindowLength) (g : Geometry) (index : UInt64) (start : Timestamp) (recording : Bool) :
    (fresh d g index start recording).Drawn [] :=
  ⟨rfl, by cases recording <;> rfl, rfl⟩

/-- Adding an event shows it in addition. -/
theorem Drawn.add {w : Window} {shown : List Event} (h : w.Drawn shown) (e : Event) :
    (w.add e).2.Drawn (shown ++ [e]) := by
  cases hs : w.canvas.geometry.sees e with
  | true =>
    rw [add_of_sees hs]
    refine ⟨?_, ?_, ?_⟩
    · rw [Frame.geometry_mark, Frame.raster_concat, ← h.canvas]
    · have hk := h.events
      simp only [Frame.geometry_mark, List.filter_append, List.filter_cons, hs, if_true, List.filter_nil]
      split <;> simp_all
    · simp [List.any_append, hs]
  | false =>
    rw [add_of_not_sees hs]
    refine ⟨?_, ?_, ?_⟩
    · rw [Frame.raster_concat_of_not_sees hs, ← h.canvas]
    · rw [h.events]
      simp [List.filter_append, hs]
    · rw [h.touched]
      simp [List.any_append, hs]

/-- Moving on gives the window that is opened anew: nothing of what was shown before is left. -/
theorem Drawn.advance {w : Window} {shown : List Event} (h : w.Drawn shown) (d : WindowLength)
    (recording : Bool) :
    w.advance d recording = fresh d w.canvas.geometry (w.index + 1) w.stop recording := by
  have hc : (if w.touched then w.canvas.clear else w.canvas) = .blank w.canvas.geometry := by
    split
    · rw [h.canvas, Frame.clear_raster, Frame.geometry_raster]
    · next ht =>
      rw [h.touched] at ht
      rw [h.canvas, Frame.raster_of_none_seen (by simpa using ht), Frame.geometry_blank]
  simp [Window.advance, fresh, hc]

end Window

end EventCamera
