import Blockwright.Bytes

/-!
# PNG images

Color types, bit depths and headers of PNG images, and the reasons why a byte string is not one.
-/

namespace Blockwright

/-- What the samples of a pixel stand for. -/
inductive ColorType where
  | grayscale
  /-- Red, green and blue. -/
  | rgb
  | indexed
  | grayscaleAlpha
  /-- Red, green, blue and alpha. -/
  | rgba
deriving DecidableEq, Repr

namespace ColorType

/-- The color type with the given number. -/
def ofByte? (byte : UInt8) : Option ColorType :=
  if byte = 0 then some .grayscale
  else if byte = 2 then some .rgb
  else if byte = 3 then some .indexed
  else if byte = 4 then some .grayscaleAlpha
  else if byte = 6 then some .rgba
  else none

/-- Number of a color type. -/
def byte : ColorType → UInt8
  | .grayscale => 0
  | .rgb => 2
  | .indexed => 3
  | .grayscaleAlpha => 4
  | .rgba => 6

theorem ofByte?_byte (color : ColorType) : ofByte? color.byte = some color := by
  cases color <;> rfl

/-- Number of samples per pixel. -/
def channels : ColorType → Nat
  | .grayscale => 1
  | .rgb => 3
  | .indexed => 1
  | .grayscaleAlpha => 2
  | .rgba => 4

/-- Whether pixels have their own red, green and blue, as the game needs. -/
def isTruecolor : ColorType → Bool
  | .rgb => true
  | .rgba => true
  | _ => false

end ColorType

/-- Number of bits per sample. -/
inductive Depth where
  | one
  | two
  | four
  | eight
  | sixteen
deriving DecidableEq, Repr

namespace Depth

/-- The depth with the given number of bits. -/
def ofByte? (byte : UInt8) : Option Depth :=
  if byte = 1 then some .one
  else if byte = 2 then some .two
  else if byte = 4 then some .four
  else if byte = 8 then some .eight
  else if byte = 16 then some .sixteen
  else none

/-- Number of bits of a depth. -/
def bits : Depth → Nat
  | .one => 1
  | .two => 2
  | .four => 4
  | .eight => 8
  | .sixteen => 16

end Depth

/-- Whether pixels of a color type may have a depth. -/
def ColorType.allows : ColorType → Depth → Bool
  | .grayscale, _ => true
  | .indexed, depth => depth != .sixteen
  | _, depth => depth == .eight || depth == .sixteen

namespace Png

/-- What is wrong with a header. -/
inductive HeaderFault where
  /-- It has a wrong number of bytes. -/
  | size (bytes : Nat)
  | repeated
  /-- A side is zero, or the image is too large to be addressed. -/
  | dimensions (width height : UInt32)
  /-- The compression or filter method is unknown. -/
  | method
  | interlace (byte : UInt8)
deriving DecidableEq, Repr

/-- The sides of an image as text. -/
def sides (width height : UInt32) : String :=
  toString width.toNat ++ "x" ++ toString height.toNat

def HeaderFault.message : HeaderFault → String
  | .size bytes => "IHDR has " ++ toString bytes ++ " bytes"
  | .repeated => "duplicate IHDR"
  | .dimensions width height => sides width height ++ " image"
  | .method => "unknown compression or filter method"
  | .interlace byte => "interlace method " ++ toString byte.toNat

/-- Why a byte string is not an image, or an image cannot be written. -/
inductive Error where
  | badSignature
  /-- The chunk at an offset is cut off. -/
  | truncated (offset : Nat)
  /-- The checksum of a chunk is wrong. -/
  | badChecksum (kind : String)
  /-- The header does not come first. -/
  | missingHeader
  | invalidHeader (fault : HeaderFault)
  | unsupportedColorType (byte : UInt8)
  /-- The color type does not allow the depth. -/
  | unsupportedDepth (depth color : UInt8)
  | interlaced
  | missingData
  | missingEnd
  | missingPalette
  /-- A palette has a wrong number of bytes. -/
  | badPalette (bytes : Nat)
  /-- A pixel is not in the palette. -/
  | paletteIndex (index : UInt8)
  /-- The image data is no compressed stream. -/
  | inflate
  /-- The image data has a wrong number of bytes. -/
  | dataLength (expected actual : Nat)
  /-- The filter of a row is unknown. -/
  | badFilter (byte : UInt8)
  /-- There is a wrong number of bytes for the sides. -/
  | bufferSize (width height : UInt32) (expected actual : Nat)
  | zeroSize
  /-- A number of bytes does not fit a word of 64 bits. This is nothing that can be answered: it
  stops the program. -/
  | overflow
deriving DecidableEq, Repr

def Error.message : Error → String
  | .badSignature => "Missing PNG signature"
  | .truncated offset => "Truncated chunk at byte offset " ++ toString offset
  | .badChecksum kind => "CRC mismatch in " ++ kind ++ " chunk"
  | .missingHeader => "IHDR must be the first chunk"
  | .invalidHeader fault => "Invalid IHDR: " ++ fault.message
  | .unsupportedColorType byte => "Unsupported color type " ++ toString byte.toNat
  | .unsupportedDepth depth color =>
    "Unsupported bit depth " ++ toString depth.toNat ++ " for color type " ++ toString color.toNat
  | .interlaced => "Interlaced images are not supported"
  | .missingData => "Missing IDAT chunk"
  | .missingEnd => "Missing IEND chunk"
  | .missingPalette => "Indexed image without a PLTE chunk"
  | .badPalette bytes => "Malformed PLTE chunk of " ++ toString bytes ++ " bytes"
  | .paletteIndex index => "Palette index " ++ toString index.toNat ++ " out of range"
  | .inflate => "Compressed image data is corrupt"
  | .dataLength expected actual =>
    "Image data has " ++ toString actual ++ " bytes, expected " ++ toString expected
  | .badFilter byte => "Unknown scanline filter type " ++ toString byte.toNat
  | .bufferSize width height expected actual =>
    "Pixel buffer has " ++ toString actual ++ " bytes, expected " ++ toString expected ++ " for "
      ++ sides width height ++ " RGBA"
  | .zeroSize => "Image dimensions must be non-zero"
  | .overflow => "arithmetic overflow"

/-- What the header of an image tells. -/
structure Header where
  width : UInt32
  height : UInt32
  depth : Depth
  /-- What the samples of a pixel stand for. -/
  color : ColorType
deriving DecidableEq, Repr

namespace Header

/-- Number of bytes per row. -/
def stride (header : Header) : Nat :=
  (header.width.toNat * header.color.channels * header.depth.bits + 7) / 8

/-- Number of bytes from a byte to the one that it is compared with on its left. -/
def reach (header : Header) : Nat := max 1 (header.color.channels * header.depth.bits / 8)

/-- Number of bytes of all rows, each with its filter in front. -/
def dataSize (header : Header) : Nat := header.height.toNat * (header.stride + 1)

/-- Reads the bytes behind the sides. -/
def readKind (width height : UInt32) (depth color compression filter interlace : UInt8) :
    Except Error Header := do
  match ColorType.ofByte? color with
  | none => throw (.unsupportedColorType color)
  | some found =>
    match (Depth.ofByte? depth).filter found.allows with
    | none => throw (.unsupportedDepth depth color)
    | some depth =>
      if compression ≠ 0 ∨ filter ≠ 0 then throw (.invalidHeader .method)
      if interlace = 1 then throw .interlaced
      if interlace ≠ 0 then throw (.invalidHeader (.interlace interlace))
      return { width, height, depth, color := found }

/-- Reads a header. -/
def ofBytes (data : List UInt8) : Except Error Header :=
  match data with
  | [w1, w2, w3, w4, h1, h2, h3, h4, depth, color, compression, filter, interlace] =>
    let width := Bytes.ofBigEndian w1 w2 w3 w4
    let height := Bytes.ofBigEndian h1 h2 h3 h4
    if width = 0 ∨ height = 0 then .error (.invalidHeader (.dimensions width height))
    else readKind width height depth color compression filter interlace
  | _ => .error (.invalidHeader (.size data.length))

/-- The bytes of a header. -/
def bytes (header : Header) : List UInt8 :=
  Bytes.bigEndian header.width ++ Bytes.bigEndian header.height
    ++ [UInt8.ofNat header.depth.bits, header.color.byte, 0, 0, 0]

end Header

end Png

end Blockwright
