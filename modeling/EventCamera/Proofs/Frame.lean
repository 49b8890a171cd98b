import EventCamera.Proofs.Window.Drawing
import Mathlib
/-!
# What a frame shows

A frame is drawn by strokes: pixels are marked, and now and then it is cleared. `Frame.Shows` says that it shows exactly
the given pixels, byte by byte; each stroke keeps it (`Shows.mark`, `Shows.clear`).

`Frame.shows_marked`: after any strokes a frame shows the pixels of the sensor that were marked since it was last
cleared, and nothing else of the strokes is left. Pixels beyond the reach of a coordinate are never marked.
-/

namespace EventCamera

/-- What is done to a frame. -/
inductive Stroke where
  | mark (x y : UInt16)
  | clear
  deriving DecidableEq, Repr

/-- The pixel that a stroke marks. -/
def Stroke.pixel? : Stroke → Option (UInt16 × UInt16)
  | mark x y => some (x, y)
  | clear => none

namespace Geometry

variable {g : Geometry}

/-- The pixels of the sensor that were marked since the frame was last cleared. -/
def marked (g : Geometry) (strokes : List Stroke) : Finset (UInt16 × UInt16) :=
  ((strokes.rtakeWhile (· != .clear)).filterMap Stroke.pixel?).toFinset.filter fun p => g.contains p.1 p.2

theorem marked_clear (g : Geometry) (strokes : List Stroke) : g.marked (strokes ++ [.clear]) = ∅ := by
  rw [marked, List.rtakeWhile_concat_neg _ _ _ (by decide)]
  rfl

/-- Only a mark on the sensor counts. -/
theorem marked_mark (g : Geometry) (strokes : List Stroke) (x y : UInt16) :
    g.marked (strokes ++ [.mark x y]) =
      if g.contains x y then insert (x, y) (g.marked strokes) else g.marked strokes := by
  have hmarks : ([.mark x y] : List Stroke).filterMap Stroke.pixel? = [(x, y)] := rfl
  rw [marked, List.rtakeWhile_concat_pos _ _ _ (by rfl), List.filterMap_append, hmarks, List.toFinset_append,
    Finset.filter_union, ← marked, List.toFinset_cons, List.toFinset_nil, insert_empty_eq, Finset.filter_singleton,
    Finset.union_comm]
  cases g.contains x y with
  | true => rfl
  | false => exact Finset.empty_union _

/-- Row-major position of a pixel. -/
def position (g : Geometry) (p : UInt16 × UInt16) : Nat := p.2.toNat * g.width.toNat + p.1.toNat

theorem position_lt {p : UInt16 × UInt16} (h : g.contains p.1 p.2 = true) : g.position p < g.area := by
  obtain ⟨hx, hy⟩ := (contains_iff g _ _).1 h
  exact Frame.position_lt_area hx hy

/-- Two pixels of the sensor lie at different positions. -/
theorem eq_of_position_eq {p q : UInt16 × UInt16} (hp : g.contains p.1 p.2 = true) (hq : g.contains q.1 q.2 = true)
    (h : g.position p = g.position q) : p = q := by
  obtain ⟨hx, hy⟩ := Frame.position_inj ((contains_iff g _ _).1 hp).1 ((contains_iff g _ _).1 hq).1 h
  exact Prod.ext (UInt16.toNat_inj.1 hx) (UInt16.toNat_inj.1 hy)

/-- A 64-bit number counts the pixels of any sensor. -/
theorem area_lt (g : Geometry) : g.area < 2 ^ 64 := by
  have hwidth := g.width.toNat_lt
  have hheight := g.height.toNat_lt
  calc g.area < 2 ^ 32 * 2 ^ 32 := Nat.mul_lt_mul'' hwidth hheight
    _ = 2 ^ 64 := by norm_num

end Geometry

namespace Frame

variable {g : Geometry} {f f' : Frame} {shown : Finset (UInt16 × UInt16)} {x y : UInt16}

theorem index?_of_contains (h : f.geometry.contains x y = true) : f.index? x y = some (f.geometry.position (x, y)) :=
  if_pos h

theorem index?_of_not_contains (h : f.geometry.contains x y = false) : f.index? x y = none := by
  rw [index?, h, if_neg (by simp)]

/-- The frame shows exactly the given pixels, all of them on the sensor. -/
structure Shows (f : Frame) (g : Geometry) (shown : Finset (UInt16 × UInt16)) : Prop where
  geometry : f.geometry = g
  size : f.pixels.size = g.area
  seen : ∀ p ∈ shown, g.contains p.1 p.2 = true
  pixel : ∀ i, i < g.area → f.pixels[i]? = some (if ∃ p ∈ shown, g.position p = i then foreground else background)
  litCount : f.litCount = shown.card

theorem shows_blank (g : Geometry) : (blank g).Shows g ∅ where
  geometry := rfl
  size := size_pixels_blank g
  seen := by simp
  pixel i hi := by simp [blank, hi]
  litCount := by simp [litCount, blank]

theorem Shows.clear (h : f.Shows g shown) : f.clear.Shows g ∅ where
  geometry := h.geometry
  size := (size_pixels_clear f).trans h.size
  seen := by simp
  pixel i hi := by simp [Frame.clear, h.size, hi]
  litCount := by simp [Frame.litCount, Frame.clear]

/-- On the sensor one byte is set. -/
theorem pixels_mark_of_contains (h : f.geometry.contains x y = true) :
    (f.mark x y).2.pixels = f.pixels.setIfInBounds (f.geometry.position (x, y)) foreground := by
  rw [mark, index?_of_contains h]

/-- Marking a pixel sets its byte and no other. -/
theorem pixels_mark_of_ne {i : Nat} (h : f.index? x y ≠ some i) : (f.mark x y).2.pixels[i]? = f.pixels[i]? := by
  cases hc : f.geometry.contains x y with
  | true =>
    rw [index?_of_contains hc] at h
    rw [pixels_mark_of_contains hc, Array.getElem?_setIfInBounds_ne (by simpa using h)]
  | false => rw [snd_mark_of_not_contains hc]

theorem get?_mark_of_ne {x' y' : UInt16} (h : (x', y') ≠ (x, y)) : (f.mark x y).2.get? x' y' = f.get? x' y' := by
  have hindex : (f.mark x y).2.index? x' y' = f.index? x' y' := by rw [index?, geometry_mark, ← index?]
  rw [get?, get?, hindex]
  cases hc' : f.geometry.contains x' y' with
  | true =>
    have hne : f.index? x y ≠ some (f.geometry.position (x', y')) := by
      cases hc : f.geometry.contains x y with
      | true =>
        rw [index?_of_contains hc, ne_eq, Option.some_inj]
        exact fun heq => h (Geometry.eq_of_position_eq hc' hc heq.symm)
      | false => simp [index?_of_not_contains hc]
    rw [index?_of_contains hc']
    exact pixels_mark_of_ne hne
  | false => rw [index?_of_not_contains hc', Option.bind_none, Option.bind_none]

/-- The byte of a pixel tells whether the pixel is shown. -/
theorem Shows.pixel_position (h : f.Shows g shown) (hseen : g.contains x y = true) :
    f.pixels[g.position (x, y)]? = some (if (x, y) ∈ shown then foreground else background) := by
  have hshown : (∃ p ∈ shown, g.position p = g.position (x, y)) ↔ (x, y) ∈ shown :=
    ⟨fun ⟨p, hp, heq⟩ => Geometry.eq_of_position_eq (h.seen p hp) hseen heq ▸ hp, fun hp => ⟨_, hp, rfl⟩⟩
  rw [h.pixel _ (Geometry.position_lt hseen)]
  simp only [hshown]

theorem litCount_mark (h : f.Shows g shown) (hseen : g.contains x y = true) :
    (f.mark x y).2.litCount = (insert (x, y) shown).card := by
  obtain rfl := h.geometry
  have hlt : f.geometry.position (x, y) < f.pixels.size := h.size ▸ Geometry.position_lt hseen
  have hpixel := h.pixel_position hseen
  rw [Array.getElem?_eq_getElem hlt, Option.some_inj] at hpixel
  have hforeground : (foreground != background) = true := rfl
  rw [Frame.litCount, pixels_mark_of_contains hseen, Array.setIfInBounds, dif_pos hlt, Array.countP_set, hpixel,
    ← Frame.litCount, h.litCount, hforeground]
  by_cases hmem : (x, y) ∈ shown
  · have hpos : 0 < shown.card := Finset.card_pos.2 ⟨_, hmem⟩
    rw [Finset.insert_eq_of_mem hmem]
    simp [hmem, hforeground]
    omega
  · rw [Finset.card_insert_of_notMem hmem]
    simp [hmem]

/-- A mark on the sensor shows one pixel more, unless it is shown already. -/
theorem Shows.mark (h : f.Shows g shown) (hseen : g.contains x y = true) :
    (f.mark x y).2.Shows g (insert (x, y) shown) := by
  obtain rfl := h.geometry
  have hlt : f.geometry.position (x, y) < f.pixels.size := h.size ▸ Geometry.position_lt hseen
  refine ⟨geometry_mark f x y, (size_pixels_mark f x y).trans h.size, ?_, ?_, litCount_mark h hseen⟩
  · intro p hp
    rcases Finset.mem_insert.1 hp with rfl | hp
    · exact hseen
    · exact h.seen p hp
  · intro i hi
    rw [pixels_mark_of_contains hseen, Array.getElem?_setIfInBounds, h.pixel i hi]
    by_cases heq : f.geometry.position (x, y) = i
    · simp [heq, heq ▸ hlt]
    · simp [heq]

/-- Frames that show the same are the same. -/
theorem Shows.eq (h : f.Shows g shown) (h' : f'.Shows g shown) : f = f' := by
  obtain ⟨geometry, pixels⟩ := f
  obtain ⟨geometry', pixels'⟩ := f'
  have hgeometry : geometry = geometry' := h.geometry.trans h'.geometry.symm
  have hpixels : pixels = pixels' := by
    refine Array.ext_getElem? fun i => ?_
    by_cases hi : i < g.area
    · exact (h.pixel i hi).trans (h'.pixel i hi).symm
    · rw [Array.getElem?_eq_none (by rw [h.size]; omega), Array.getElem?_eq_none (by rw [h'.size]; omega)]
  rw [hgeometry, hpixels]

/-- What a frame shows can be told from it. -/
theorem Shows.shown_eq {shown' : Finset (UInt16 × UInt16)} (h : f.Shows g shown) (h' : f.Shows g shown') :
    shown = shown' := by
  ext p
  by_cases hseen : g.contains p.1 p.2 = true
  · have hbyte := (h.pixel_position hseen).symm.trans (h'.pixel_position hseen)
    by_cases hp : p ∈ shown <;> by_cases hp' : p ∈ shown' <;> simp [hp, hp', foreground, background] at hbyte ⊢
  · exact ⟨fun hp => absurd (h.seen p hp) hseen, fun hp => absurd (h'.seen p hp) hseen⟩

/-! ## Strokes -/

def stroke (f : Frame) : Stroke → Frame
  | .mark x y => (f.mark x y).2
  | .clear => f.clear

/-- A new frame with the strokes, one after the other. -/
def drawn (g : Geometry) (strokes : List Stroke) : Frame := strokes.foldl stroke (.blank g)

theorem drawn_concat (g : Geometry) (strokes : List Stroke) (s : Stroke) :
    drawn g (strokes ++ [s]) = (drawn g strokes).stroke s := by
  rw [drawn, List.foldl_append]
  rfl

theorem shows_drawn (g : Geometry) (strokes : List Stroke) : (drawn g strokes).Shows g (g.marked strokes) := by
  induction strokes using List.reverseRecOn with
  | nil => exact shows_blank g
  | append_singleton strokes s ih =>
    rw [drawn_concat]
    cases s with
    | clear =>
      rw [Geometry.marked_clear]
      exact ih.clear
    | mark x y =>
      rw [Geometry.marked_mark]
      cases hseen : g.contains x y with
      | true => exact ih.mark hseen
      | false =>
        rw [if_neg (by simp), stroke, snd_mark_of_not_contains (by rw [ih.geometry, hseen])]
        exact ih

/-- What a frame shows after any strokes. It has a byte for every pixel of the sensor: 255 where the pixel was marked
since the frame was last cleared, and 0 elsewhere. Another mark tells whether the pixel is on the sensor and touches no
other byte. The lit pixels are counted, each of them once, and two frames are the same exactly if the same pixels were
marked. The position of a pixel is within the buffer, and a 64-bit number can tell it. -/
theorem shows_marked (g : Geometry) (strokes : List Stroke) :
    let f := drawn g strokes
    let marked := g.marked strokes
    (f.geometry = g ∧ f.pixels.size = g.width.toNat * g.height.toNat) ∧
    (∀ x y, f.get? x y = if g.contains x y then some (if (x, y) ∈ marked then 255 else 0) else none) ∧
    (∀ x y, (f.mark x y).1 = g.contains x y ∧ (g.contains x y = false → (f.mark x y).2 = f) ∧
      (∀ x' y', (x', y') ≠ (x, y) → (f.mark x y).2.get? x' y' = f.get? x' y') ∧
      ∀ i, f.index? x y ≠ some i → (f.mark x y).2.pixels[i]? = f.pixels[i]?) ∧
    f.litCount = marked.card ∧
    (∀ strokes', drawn g strokes' = f ↔ g.marked strokes' = marked) ∧
    (∀ x y i, f.index? x y = some i → i = y.toNat * g.width.toNat + x.toNat ∧ i < f.pixels.size) ∧
    f.pixels.size < 2 ^ 64 := by
  intro f marked
  have h : f.Shows g marked := shows_drawn g strokes
  refine ⟨⟨h.geometry, h.size⟩, ?_, ?_, h.litCount, ?_, ?_, ?_⟩
  · intro x y
    cases hc : g.contains x y with
    | true =>
      rw [get?, index?_of_contains (by rw [h.geometry, hc]), Option.bind_some, h.geometry]
      exact h.pixel_position hc
    | false =>
      rw [get?, index?_of_not_contains (by rw [h.geometry, hc])]
      rfl
  · intro x y
    refine ⟨by rw [fst_mark, h.geometry], ?_, fun _ _ => get?_mark_of_ne, fun _ => pixels_mark_of_ne⟩
    intro hc
    exact snd_mark_of_not_contains (by rw [h.geometry, hc])
  · intro strokes'
    have h' := shows_drawn g strokes'
    exact ⟨fun heq => (heq ▸ h').shown_eq h, fun heq => (heq ▸ h').eq h⟩
  · intro x y i hi
    cases hc : f.geometry.contains x y with
    | true =>
      rw [index?_of_contains hc, h.geometry, Option.some_inj] at hi
      rw [h.geometry] at hc
      subst hi
      exact ⟨rfl, h.size ▸ Geometry.position_lt hc⟩
    | false =>
      rw [index?_of_not_contains hc] at hi
      cases hi
  · rw [h.size]
    exact g.area_lt

end Frame

end EventCamera
