import Blockwright.Png.Pixels

/-!
# Writing PNG images

Images are written with red, green, blue and alpha in eight bits each, rows without prediction and
all image data in one chunk.
-/

namespace Blockwright

namespace Png

/-- Header of every image that is written. -/
def writtenHeader (width height : UInt32) : Header :=
  { width, height, depth := .eight, color := .rgba }

/-- The rows of an image with the given number of columns, each with its filter in front. -/
def scanlines (width : UInt32) (bytes : List UInt8) : List UInt8 :=
  let stride := 4 * width.toNat
  (rows stride (bytes.length / stride) bytes).flatMap fun row => Filter.plain.byte :: row

/-- The chunks of an image with compressed rows. -/
def chunks (width height : UInt32) (data : List UInt8) : List Chunk := [
  { kind := Chunk.header, data := (writtenHeader width height).bytes },
  { kind := Chunk.imageData, data },
  { kind := Chunk.ending, data := [] }]

section Compressing

variable (compress : List UInt8 → List UInt8)

/-- The image file with the given sides and bytes, four for each pixel, whose rows are compressed
in the given way. -/
def encodeWith (width height : UInt32) (bytes : List UInt8) : Except Error (List UInt8) :=
  if width = 0 ∨ height = 0 then .error .zeroSize
  else
    match Image.byteCount? width height with
    | none => .error .overflow
    | some expected =>
      if bytes.length ≠ expected then .error (.bufferSize width height expected bytes.length)
      else
        let data := compress (scanlines width bytes)
        .ok (signature ++ (chunks width height data).flatMap Chunk.bytes)

/-- The image file of an image. -/
def encodeImageWith (image : Image) : Except Error (List UInt8) :=
  encodeWith compress image.width image.height image.bytes

/-- The image file itself if its pixels have their own colors, or else one of the same picture
whose pixels do. -/
def normalizeWith (bytes : List UInt8) : Except Error (List UInt8) := do
  let png ← decode bytes
  if png.header.color.isTruecolor then return bytes
  encodeImageWith compress (← png.toImage)

end Compressing

end Png

end Blockwright
