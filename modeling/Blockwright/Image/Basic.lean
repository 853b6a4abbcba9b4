import Blockwright.Image.Color

/-!
# Images

Images with red, green, blue and alpha in eight bits each, row by row. Sides are words of 32 bits,
as in the files that images come from; a proper image has one pixel per position.
-/

namespace Blockwright

/-- A pixel. -/
structure Pixel where
  red : UInt8
  green : UInt8
  blue : UInt8
  /-- Opacity; a pixel without any is not seen. -/
  alpha : UInt8
deriving DecidableEq, Repr

namespace Pixel

/-- A pixel without color and opacity. -/
def clear : Pixel := { red := 0, green := 0, blue := 0, alpha := 0 }

/-- A pixel of full opacity. -/
def solid (color : Color) : Pixel :=
  { red := color.red, green := color.green, blue := color.blue, alpha := 255 }

/-- The color of a pixel. -/
def color (pixel : Pixel) : Color :=
  { red := pixel.red, green := pixel.green, blue := pixel.blue }

/-- A pixel with another color. -/
def withColor (pixel : Pixel) (color : Color) : Pixel :=
  { red := color.red, green := color.green, blue := color.blue, alpha := pixel.alpha }

/-- Whether a pixel is seen. -/
def isVisible (pixel : Pixel) : Bool := pixel.alpha != 0

/-- The four bytes of a pixel. -/
def bytes (pixel : Pixel) : List UInt8 := [pixel.red, pixel.green, pixel.blue, pixel.alpha]

/-- Pixels from bytes; fewer than four bytes at the end are dropped. -/
def listOfBytes : List UInt8 → List Pixel
  | red :: green :: blue :: alpha :: rest => { red, green, blue, alpha } :: listOfBytes rest
  | _ => []

@[simp]
theorem listOfBytes_flatMap_bytes (pixels : List Pixel) :
    listOfBytes (pixels.flatMap bytes) = pixels := by
  induction pixels with
  | nil => rfl
  | cons pixel rest ih => simp [bytes, listOfBytes, ih]

@[simp]
theorem length_flatMap_bytes (pixels : List Pixel) :
    (pixels.flatMap bytes).length = 4 * pixels.length := by
  induction pixels with
  | nil => rfl
  | cons pixel rest ih => simp [bytes, ih]; omega

end Pixel

/-- An image. -/
structure Image where
  width : UInt32
  height : UInt32
  /-- Pixels, row by row. -/
  pixels : Array Pixel
deriving DecidableEq

namespace Image

/-- Number of positions of an image with the given sides. -/
def area (width height : UInt32) : Nat := width.toNat * height.toNat

/-- Number of bytes of an image with the given sides, four for each position, if it fits a word of
64 bits. -/
def byteCount? (width height : UInt32) : Option Nat :=
  let count := 4 * area width height
  if count < UInt64.size then some count else none

/-- Whether an image has one pixel per position. -/
def Sized (image : Image) : Prop := image.pixels.size = area image.width image.height

instance (image : Image) : Decidable image.Sized :=
  inferInstanceAs (Decidable (image.pixels.size = area image.width image.height))

/-- The pixel at a position. -/
def get (image : Image) (x y : Nat) : Pixel :=
  image.pixels.getD (y * image.width.toNat + x) Pixel.clear

/-- The image whose pixels are given by their positions. -/
def ofFn (width height : UInt32) (pixel : Nat → Nat → Pixel) : Image :=
  { width
    height
    pixels := Array.ofFn fun i : Fin (area width height) =>
      pixel (i.val % width.toNat) (i.val / width.toNat) }

theorem sized_ofFn (width height : UInt32) (pixel : Nat → Nat → Pixel) :
    (ofFn width height pixel).Sized := by
  simp [Sized, ofFn]

/-- The bytes of an image, four for each pixel. -/
def bytes (image : Image) : List UInt8 := image.pixels.toList.flatMap Pixel.bytes

theorem Sized.length_bytes {image : Image} (sized : image.Sized) :
    image.bytes.length = 4 * area image.width image.height := by
  rw [bytes, Pixel.length_flatMap_bytes, Array.length_toList, sized]

theorem byteCount?_eq_some {width height : UInt32} {count : Nat} :
    byteCount? width height = some count ↔
      count = 4 * area width height ∧ 4 * area width height < UInt64.size := by
  rw [byteCount?]
  split <;> grind

theorem byteCount?_eq_none {width height : UInt32} :
    byteCount? width height = none ↔ UInt64.size ≤ 4 * area width height := by
  rw [byteCount?]
  split <;> simp <;> omega

/-- The image with the given bytes, if there are as many as its sides ask for. -/
def ofBytes? (width height : UInt32) (bytes : List UInt8) : Option Image :=
  if byteCount? width height = some bytes.length then
    some { width, height, pixels := (Pixel.listOfBytes bytes).toArray }
  else none

/-- An image with every pixel changed by itself. -/
def map (change : Pixel → Pixel) (image : Image) : Image :=
  { image with pixels := image.pixels.map change }

/-- An image with the pixel at a position changed; positions outside count for nothing. -/
def modify (image : Image) (x y : Int) (change : Pixel → Pixel) : Image :=
  if 0 ≤ x ∧ 0 ≤ y ∧ x < image.width.toNat ∧ y < image.height.toNat then
    { image with
      pixels := image.pixels.modify (y.toNat * image.width.toNat + x.toNat) change }
  else image

@[simp]
theorem width_modify (image : Image) (x y : Int) (change : Pixel → Pixel) :
    (image.modify x y change).width = image.width := by
  unfold modify
  split <;> rfl

@[simp]
theorem height_modify (image : Image) (x y : Int) (change : Pixel → Pixel) :
    (image.modify x y change).height = image.height := by
  unfold modify
  split <;> rfl

@[simp]
theorem size_modify (image : Image) (x y : Int) (change : Pixel → Pixel) :
    (image.modify x y change).pixels.size = image.pixels.size := by
  unfold modify
  split
  · simp
  · rfl

theorem Sized.modify {image : Image} (sized : image.Sized) (x y : Int)
    (change : Pixel → Pixel) : (image.modify x y change).Sized := by
  simpa [Sized] using sized

end Image

end Blockwright
