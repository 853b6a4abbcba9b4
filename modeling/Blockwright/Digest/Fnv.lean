import Blockwright.Bytes

/-!
# Small stable hashes

The 32-bit FNV-1a hash. It chooses hues, nudged pixels and noise, so it must not depend on
anything but the bytes.
-/

namespace Blockwright

namespace Fnv

/-- Hash of the empty byte string. -/
def offsetBasis : UInt32 := 0x811c9dc5

/-- Multiplier of each step. -/
def prime : UInt32 := 0x01000193

/-- Mixes one byte into a hash. -/
def step (hash : UInt32) (byte : UInt8) : UInt32 :=
  (hash ^^^ byte.toUInt32) * prime

/-- Mixes a text's UTF-8 bytes into a hash. -/
def mixText (hash : UInt32) (text : String) : UInt32 :=
  text.toUTF8.foldl step hash

/-- Hash of a text. -/
def hash (text : String) : UInt32 := mixText offsetBasis text

/-- Hash of a noise seed, shared by all its coordinates. -/
def seeded (seed : String) : UInt32 := mixText (hash seed) ":"

/-- Noise of a hashed seed at a coordinate. -/
def noiseAt (seeded x y : UInt32) : UInt32 :=
  (Bytes.littleEndian y).foldl step ((Bytes.littleEndian x).foldl step seeded)

/-- Noise of a seed at a coordinate. -/
def noise (seed : String) (x y : UInt32) : UInt32 := noiseAt (seeded seed) x y

end Fnv

end Blockwright
