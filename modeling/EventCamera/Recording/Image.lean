import EventCamera.Text.Bytes
import EventCamera.Text.Decimal
import EventCamera.Frame
/-!
# Captured images

A capture is a binary PGM image: the magic `P5`, width and height, the largest value, and then one
byte per pixel, row after row.
-/

namespace EventCamera

/-- The lines before the pixels. -/
def Geometry.imageHeader (g : Geometry) : List Char :=
  "P5\n".toList ++ Decimal.digits g.width.toNat ++ ' ' :: Decimal.digits g.height.toNat ++ "\n255\n".toList

namespace Frame

/-- The frame as an image file. -/
def image (f : Frame) : Bytes := Bytes.ofChars f.geometry.imageHeader ++ f.pixels.toList

/-- Splits off the text before the first byte with the code of `c`. -/
def splitAtByte (c : Char) (bytes : Bytes) : Option (List Char × Bytes) :=
  match bytes.dropWhile (· != c.toUInt8) with
  | [] => none
  | _ :: rest => some ((bytes.takeWhile (· != c.toUInt8)).map fun b => Char.ofNat b.toNat, rest)

/-- A side of an image: digits that give a 32-bit number. -/
def readSide? (cs : List Char) : Option UInt32 :=
  (Decimal.readNat? cs).bind fun n => if n < UInt32.size then some (UInt32.ofNat n) else none

/-- The frame that an image file shows. -/
def ofImage? (bytes : Bytes) : Option Frame := do
  let (magic, rest) ← splitAtByte '\n' bytes
  let (width, rest) ← splitAtByte ' ' rest
  let (height, rest) ← splitAtByte '\n' rest
  let (largest, pixels) ← splitAtByte '\n' rest
  let width ← readSide? width
  let height ← readSide? height
  let g : Geometry := ⟨width, height⟩
  if magic = ['P', '5'] ∧ largest = ['2', '5', '5'] ∧ pixels.length = g.area then
    some ⟨g, pixels.toArray⟩
  else none

end Frame

end EventCamera
