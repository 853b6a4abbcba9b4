import Blockwright.Image.Basic
import Blockwright.Png.Decode

/-!
# Pixels of PNG images

The samples of a row, highest bit first, become pixels with eight bits per channel. Wider samples
keep their high bits, narrower ones are spread over the whole range.
-/

namespace Blockwright

namespace Depth

/-- The samples of a byte, highest bits first, for depths below eight. -/
def samplesOfByte (bits : Nat) (byte : UInt8) : List Nat :=
  (List.range (8 / bits)).map fun i => (byte.toNat >>> (8 - bits * (i + 1))) % (1 <<< bits)

/-- Samples of sixteen bits. -/
def wideSamples : List UInt8 → List Nat
  | high :: low :: rest => (high.toNat * 256 + low.toNat) :: wideSamples rest
  | _ => []

/-- The samples of a row. -/
def samples : Depth → List UInt8 → List Nat
  | .sixteen, row => wideSamples row
  | .eight, row => row.map UInt8.toNat
  | depth, row => row.flatMap (samplesOfByte depth.bits)

/-- A sample with eight bits. -/
def toByte : Depth → Nat → UInt8
  | .sixteen, sample => UInt8.ofNat (sample / 256)
  | .eight, sample => UInt8.ofNat sample
  | depth, sample => UInt8.ofNat (sample * 255 / (1 <<< depth.bits - 1))

end Depth

namespace Png

/-- Whether the transparency of an image names the samples of a color. -/
def isTransparent (png : Png) (samples : List Nat) : Bool :=
  match png.transparency with
  | none => false
  | some bytes =>
    2 * samples.length ≤ bytes.length
      && Depth.wideSamples (bytes.take (2 * samples.length)) == samples

/-- Opacity of a color without alpha. -/
def keyedAlpha (png : Png) (samples : List Nat) : UInt8 :=
  if png.isTransparent samples then 0 else 255

/-- The pixel at a place in the palette. -/
def palettePixel (png : Png) (index : Nat) : Except Error Pixel :=
  match png.palette[index]? with
  | none => .error (.paletteIndex (UInt8.ofNat index))
  | some color =>
    let alpha := (png.transparency.bind fun bytes => bytes[index]?).getD 255
    .ok { red := color.red, green := color.green, blue := color.blue, alpha }

/-- The pixel with the given samples. -/
def pixel (png : Png) (samples : List Nat) : Except Error Pixel :=
  let byte := png.header.depth.toByte
  match png.header.color, samples with
  | .grayscale, [gray] =>
    .ok { red := byte gray, green := byte gray, blue := byte gray
          alpha := png.keyedAlpha samples }
  | .grayscaleAlpha, [gray, alpha] =>
    .ok { red := byte gray, green := byte gray, blue := byte gray, alpha := byte alpha }
  | .rgb, [red, green, blue] =>
    .ok { red := byte red, green := byte green, blue := byte blue
          alpha := png.keyedAlpha samples }
  | .rgba, [red, green, blue, alpha] =>
    .ok { red := byte red, green := byte green, blue := byte blue, alpha := byte alpha }
  | .indexed, [index] => png.palettePixel index
  | _, _ => .ok Pixel.clear

/-- The given number of pixels from the samples of a row. -/
def pixelsOfSamples (png : Png) : (count : Nat) → List Nat → Except Error (List Pixel)
  | 0, _ => .ok []
  | count + 1, samples => do
    let channels := png.header.color.channels
    let first ← png.pixel (samples.take channels)
    let others ← png.pixelsOfSamples count (samples.drop channels)
    return first :: others

/-- The given number of rows of a byte string. -/
def rows (stride : Nat) : (count : Nat) → List UInt8 → List (List UInt8)
  | 0, _ => []
  | count + 1, bytes => bytes.take stride :: rows stride count (bytes.drop stride)

/-- The pixels of an image, row by row. -/
def pixels (png : Png) : Except Error (List Pixel) := do
  let stride := png.header.stride
  let perRow ← (rows stride (png.raw.length / stride) png.raw).mapM fun row =>
    png.pixelsOfSamples png.header.width.toNat (png.header.depth.samples row)
  return perRow.flatten

/-- The image with eight bits per channel. -/
def toImage (png : Png) : Except Error Image := do
  let pixels ← png.pixels
  let width := png.header.width
  let height := png.header.height
  if pixels.length ≠ Image.area width height then
    throw (.bufferSize width height (4 * Image.area width height) (4 * pixels.length))
  return { width, height, pixels := pixels.toArray }

/-- The image with eight bits per channel in a byte string. -/
def decodeImage (bytes : List UInt8) : Except Error Image := do (← decode bytes).toImage

end Png

end Blockwright
