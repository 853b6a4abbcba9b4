/-!
# Checksums

The two 32-bit checksums that guard binary files: the reflected cyclic redundancy check CRC-32 and
the sum Adler-32.
-/

namespace Blockwright

namespace Crc32

/-- Bits of the divisor below its leading one, lowest power first. -/
def polynomial : UInt32 := 0xedb88320

/-- Divides by the indeterminate: one bit leaves the register. -/
def shift (register : UInt32) : UInt32 :=
  if register &&& 1 = 0 then register >>> 1 else (register >>> 1) ^^^ polynomial

/-- The register after the given number of bits. -/
def shifts : (count : Nat) → UInt32 → UInt32
  | 0, register => register
  | count + 1, register => shifts count (shift register)

/-- The register after one more byte. -/
def push (register : UInt32) (byte : UInt8) : UInt32 := shifts 8 (register ^^^ byte.toUInt32)

/-- The checksum of a byte string. -/
def ofBytes (bytes : List UInt8) : UInt32 := ~~~(bytes.foldl push 0xffffffff)

end Crc32

namespace Adler32

/-- Largest prime below `2 ^ 16`. -/
def modulus : Nat := 65521

/-- The sum of the bytes, and the sum of these sums. -/
structure Sums where
  /-- Sum of the bytes, and one. -/
  bytes : Nat
  sums : Nat
deriving DecidableEq, Repr

/-- The sums after one more byte. -/
def push (state : Sums) (byte : UInt8) : Sums :=
  let bytes := (state.bytes + byte.toNat) % modulus
  { bytes, sums := (state.sums + bytes) % modulus }

/-- The checksum of a byte string. -/
def ofBytes (bytes : List UInt8) : UInt32 :=
  let state := bytes.foldl push { bytes := 1, sums := 0 }
  UInt32.ofNat (state.sums <<< 16 + state.bytes)

end Adler32

end Blockwright
