import EventCamera.Proofs.Frame
import EventCamera.Proofs.Recording.Storing
import Mathlib
/-!
# Captured images

`Frame.ofImage?_eq_some_iff`: an image file is read exactly if it has the format, with the sides spelled by any digits,
and then as what it portrays. The digits of a side end at the first byte that is none, and the pixels are all that
follows the header, so bytes of pixels that look like text do no harm.

`captured_faithfully`: a capture is an image of the frame and of no other, with the byte of each pixel at its row-major
position behind the header.
-/

namespace EventCamera

/-! ## The format -/

namespace Frame

variable {bytes rest : Bytes} {cs : List Char} {c : Char} {f f' : Frame}

/-- The bytes are an image of the frame, with the sides spelled by any digits. -/
structure Portrays (bytes : Bytes) (f : Frame) : Prop where
  size : f.pixels.size = f.geometry.area
  spelled : ∃ width height, readSide? width = some f.geometry.width ∧ readSide? height = some f.geometry.height ∧
    bytes = Bytes.ofChars ("P5\n".toList ++ (width ++ ' ' :: (height ++ "\n255\n".toList))) ++ f.pixels.toList

/-- A text is split off before the first byte that is not part of it. -/
theorem splitAtByte_append (hcs : Bytes.Narrow cs) (hc : c.utf8Size = 1) (hmem : c ∉ cs) (rest : Bytes) :
    splitAtByte c (Bytes.ofChars cs ++ c.toUInt8 :: rest) = some (cs, rest) := by
  have hother : c.toUInt8 ∉ Bytes.ofChars cs := by
    rw [hcs.ofChars_eq]
    intro hbyte
    obtain ⟨d, hd, heq⟩ := List.mem_map.1 hbyte
    exact hmem (Bytes.toUInt8_inj (hcs d hd) hc heq ▸ hd)
  rw [splitAtByte, dropWhile_bne_append hother, takeWhile_bne_append hother, hcs.chars_ofChars]

theorem eq_of_splitAtByte (h : splitAtByte c bytes = some (cs, rest)) (hcs : Bytes.Narrow cs) :
    bytes = Bytes.ofChars cs ++ c.toUInt8 :: rest := by
  unfold splitAtByte at h
  split at h
  · cases h
  · next b tail hdrop =>
    cases h
    have hfirst := List.head?_dropWhile_not (· != c.toUInt8) bytes
    rw [hdrop] at hfirst
    obtain rfl : b = c.toUInt8 := by simpa using hfirst
    rw [Bytes.ofChars_chars hcs, ← hdrop, List.takeWhile_append_dropWhile]

theorem isDigit_of_readSide? {side : UInt32} (h : readSide? cs = some side) : ∀ d ∈ cs, d.isDigit = true := by
  obtain ⟨n, hn, -⟩ := Option.bind_eq_some_iff.1 h
  unfold Decimal.readNat? at hn
  split at hn
  · cases hn
  · next hall =>
    rw [Bool.not_eq_true, Bool.or_eq_false_iff, Bool.not_eq_false'] at hall
    exact List.all_eq_true.1 hall.2

theorem readSide?_digits (side : UInt32) : readSide? (Decimal.digits side.toNat) = some side := by
  rw [readSide?, Decimal.readNat?_digits, Option.bind_some, if_pos side.toNat_lt, UInt32.ofNat_toNat]

/-- The parts of an image file, each with the byte that ends it. -/
theorem ofChars_header_append (width height : List Char) (pixels : Bytes) :
    Bytes.ofChars ("P5\n".toList ++ (width ++ ' ' :: (height ++ "\n255\n".toList))) ++ pixels =
      Bytes.ofChars ['P', '5'] ++ '\n'.toUInt8 :: (Bytes.ofChars width ++ ' '.toUInt8 :: (Bytes.ofChars height ++
        '\n'.toUInt8 :: (Bytes.ofChars ['2', '5', '5'] ++ '\n'.toUInt8 :: pixels))) := by
  have hcons : ∀ cs : List Char, Bytes.ofChars (' ' :: cs) = ' '.toUInt8 :: Bytes.ofChars cs := fun _ => rfl
  have hfirst : Bytes.ofChars "P5\n".toList = Bytes.ofChars ['P', '5'] ++ ['\n'.toUInt8] := rfl
  have hlast : Bytes.ofChars "\n255\n".toList = '\n'.toUInt8 :: (Bytes.ofChars ['2', '5', '5'] ++ ['\n'.toUInt8]) := rfl
  simp only [Bytes.ofChars_append, hcons, hfirst, hlast, List.append_assoc, List.cons_append, List.nil_append]

/-- An image file is read exactly if it has the format, and as the frame it portrays. -/
theorem ofImage?_eq_some_iff : ofImage? bytes = some f ↔ Portrays bytes f := by
  constructor
  · intro h
    simp only [ofImage?, bind, Option.bind_eq_some_iff] at h
    obtain ⟨⟨magic, afterMagic⟩, hmagic, ⟨width, afterWidth⟩, hwidth, ⟨height, afterHeight⟩, hheight,
      ⟨largest, pixels⟩, hlargest, w, hw, h', hh, hif⟩ := h
    split at hif
    · next hformat =>
      obtain ⟨rfl, rfl, hsize⟩ := hformat
      cases hif
      dsimp only at hwidth hheight hlargest hw hh hsize
      refine ⟨by simpa using hsize, width, height, hw, hh, ?_⟩
      rw [ofChars_header_append, eq_of_splitAtByte hmagic (by decide),
        eq_of_splitAtByte hwidth (Bytes.narrow_of_isDigit (isDigit_of_readSide? hw)),
        eq_of_splitAtByte hheight (Bytes.narrow_of_isDigit (isDigit_of_readSide? hh)),
        eq_of_splitAtByte hlargest (by decide)]
    · cases hif
  · rintro ⟨hsize, width, height, hw, hh, rfl⟩
    have hmagic : ∀ rest, splitAtByte '\n' (Bytes.ofChars ['P', '5'] ++ '\n'.toUInt8 :: rest) =
        some (['P', '5'], rest) :=
      splitAtByte_append (by decide) (by decide) (by decide)
    have hlargest : ∀ rest, splitAtByte '\n' (Bytes.ofChars ['2', '5', '5'] ++ '\n'.toUInt8 :: rest) =
        some (['2', '5', '5'], rest) :=
      splitAtByte_append (by decide) (by decide) (by decide)
    have hside : ∀ {c : Char} {cs : List Char} {side : UInt32}, readSide? cs = some side → c.utf8Size = 1 →
        c.isDigit = false → ∀ rest, splitAtByte c (Bytes.ofChars cs ++ c.toUInt8 :: rest) = some (cs, rest) := by
      intro c cs side hread hc hnone rest
      have hdigit := isDigit_of_readSide? hread
      exact splitAtByte_append (Bytes.narrow_of_isDigit hdigit) hc (Decimal.notMem_of_isDigit hdigit hnone) rest
    rw [ofChars_header_append]
    simp only [ofImage?, bind, hmagic, hlargest, hside hw (c := ' ') rfl rfl, hside hh (c := '\n') rfl rfl, hw, hh,
      Option.bind_some]
    rw [if_pos ⟨trivial, trivial, by simpa using hsize⟩]

/-- A file portrays one frame at most. -/
theorem Portrays.eq (h : Portrays bytes f) (h' : Portrays bytes f') : f = f' :=
  Option.some.inj ((ofImage?_eq_some_iff.2 h).symm.trans (ofImage?_eq_some_iff.2 h'))

theorem image_eq (f : Frame) : f.image = Bytes.ofChars f.geometry.imageHeader ++ f.pixels.toList := rfl

/-- A frame of full size is portrayed by its image. -/
theorem portrays_image (h : f.pixels.size = f.geometry.area) : Portrays f.image f := by
  refine ⟨h, Decimal.digits f.geometry.width.toNat, Decimal.digits f.geometry.height.toNat, readSide?_digits _,
    readSide?_digits _, ?_⟩
  simp [image, Geometry.imageHeader]

end Frame

/-! ## Captures -/

/-- A capture that is stored has the image as its content. -/
theorem entry?_saveCapture {root path : Path} {frame : Frame} {taken : Instant} {tree next : FileTree}
    (h : saveCapture root frame taken tree = (.ok path, next)) : next.entry? path = some (.file frame.image) := by
  rcases hcreate : tree.createDirectories (capturesDirectory root) with ⟨_ | _, mid⟩
  · simp [saveCapture, hcreate] at h
  · rcases saveCapture_whole hcreate frame taken with ⟨next', hsave, hwritten⟩ | ⟨e, next', hsave, -⟩
    · rw [hsave, Prod.mk.injEq, Except.ok.injEq] at h
      obtain ⟨rfl, rfl⟩ := h
      exact hwritten.target
    · rw [hsave, Prod.mk.injEq] at h
      cases h.1

/-- Whatever was drawn: a capture that is stored is an image of the frame, and of no other, in whatever digits the sides
may be spelled; it is read back to the frame, with the size of the sensor and as many pixels. Frames that differ in
anything have different images. The byte of a pixel stands behind the header, at the row-major position of the pixel. -/
theorem captured_faithfully (g : Geometry) (strokes : List Stroke) :
    let f := Frame.drawn g strokes
    (∀ root taken tree path next, saveCapture root f taken tree = (.ok path, next) →
      next.entry? path = some (.file f.image)) ∧
    (∀ f', Frame.Portrays f.image f' ↔ f' = f) ∧
    (Frame.ofImage? f.image = some f ∧ f.geometry = g ∧ f.pixels.size = g.width.toNat * g.height.toNat) ∧
    (∀ g' strokes', Frame.drawn g' strokes' ≠ f → (Frame.drawn g' strokes').image ≠ f.image) ∧
    ∀ x y, g.contains x y = true →
      f.image[(Bytes.ofChars g.imageHeader).length + (y.toNat * g.width.toNat + x.toNat)]? = f.get? x y := by
  intro f
  have hfull : ∀ g' strokes', Frame.Portrays (Frame.drawn g' strokes').image (Frame.drawn g' strokes') := by
    intro g' strokes'
    have h := Frame.shows_drawn g' strokes'
    exact Frame.portrays_image (by rw [h.geometry, h.size])
  have h : f.Shows g (g.marked strokes) := Frame.shows_drawn g strokes
  have himage : Frame.Portrays f.image f := hfull g strokes
  refine ⟨fun _ _ _ _ _ => entry?_saveCapture, fun f' => ⟨fun h' => h'.eq himage, fun heq => heq ▸ himage⟩,
    ⟨Frame.ofImage?_eq_some_iff.2 himage, h.geometry, h.size⟩, ?_, ?_⟩
  · intro g' strokes' hne heq
    have hother := hfull g' strokes'
    rw [heq] at hother
    exact hne (hother.eq himage)
  · intro x y hseen
    rw [Frame.get?, Frame.index?_of_contains (by rw [h.geometry, hseen]), Option.bind_some, Frame.image_eq, h.geometry,
      List.getElem?_append_right (Nat.le_add_right _ _), Nat.add_sub_cancel_left, Array.getElem?_toList]
    rfl

/-- Two pixels in a row, of which the second is marked; its mark is the last byte of the file. -/
theorem captured_faithfully_two_pixels :
    let f := Frame.drawn ⟨2, 1⟩ [.mark 0 0, .clear, .mark 1 0]
    f.image = Bytes.ofText "P5\n2 1\n255\n" ++ [0, 255] ∧
      (∃ next, saveCapture ⟨"/"⟩ f .epoch .empty = (.ok (captureTarget ⟨"/"⟩ .epoch), next) ∧
        next.entry? (captureTarget ⟨"/"⟩ .epoch) = some (.file f.image)) ∧
      (Frame.drawn ⟨1, 2⟩ [.mark 0 1]).image ≠ f.image ∧ f.image[12]? = f.get? 1 0 ∧ f.get? 1 0 = some 255 := by
  intro f
  obtain ⟨hstored, -, -, hdifferent, hpixel⟩ := captured_faithfully ⟨2, 1⟩ [.mark 0 0, .clear, .mark 1 0]
  have hok : (saveCapture ⟨"/"⟩ f .epoch .empty).1 = .ok (captureTarget ⟨"/"⟩ .epoch) := by decide +kernel
  have hsave : saveCapture ⟨"/"⟩ f .epoch .empty = (.ok (captureTarget ⟨"/"⟩ .epoch), (saveCapture ⟨"/"⟩ f .epoch .empty).2) :=
    Prod.ext hok rfl
  exact ⟨by decide +kernel, ⟨_, hsave, hstored _ _ _ _ _ hsave⟩, hdifferent _ _ (by decide +kernel),
    hpixel 1 0 (by decide), by decide +kernel⟩

end EventCamera
