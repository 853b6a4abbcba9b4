import Blockwright.Bytes

/-!
# Bits of a compressed stream

The bits of a byte string, lowest bit of each byte first, and reading from them.
-/

namespace Blockwright

namespace Flate

/-- Why something cannot be read. -/
inductive Fault where
  | short
  | corrupt
deriving DecidableEq, Repr

/-- The unread part of a stream. -/
structure Bits where
  bytes : List UInt8
  /-- Number of bits of the first byte that have been read. -/
  used : Nat
  /-- Number of bytes of the whole stream of which bits have been read. -/
  begun : Nat
deriving DecidableEq, Repr

namespace Bits

/-- The whole of a byte string that stands behind a number of bytes. -/
def behind (begun : Nat) (bytes : List UInt8) : Bits := { bytes, used := 0, begun }

/-- Drops the rest of a byte that has been read in part. -/
def align (bits : Bits) : Bits :=
  if bits.used = 0 then bits else { bits with bytes := bits.bytes.drop 1, used := 0 }

/-- Number of bits that are not read. -/
def remaining (bits : Bits) : Nat := 8 * bits.bytes.length - bits.used

/-- Whether every byte has been begun. -/
def isSpent (bits : Bits) : Bool := bits.align.bytes.isEmpty

/-- Number of bytes that come in together. -/
def portionSize : Nat := 32768

/-- The portion of the stream in which the byte lies that was begun last, counted from zero. -/
def portion (bits : Bits) : Nat := (bits.begun - 1) / portionSize

end Bits

/-- Reading from a stream. -/
abbrev Reading : Type → Type := EStateM Fault Bits

namespace Reading

/-- Reads a bit. -/
def bit : Reading Bool := fun bits =>
  match bits.bytes with
  | [] => .error .short bits
  | byte :: rest =>
    let begun := if bits.used = 0 then bits.begun + 1 else bits.begun
    let next : Bits :=
      if bits.used = 7 then { bytes := rest, used := 0, begun }
      else { bits with used := bits.used + 1, begun }
    .ok (byte.toNat.testBit bits.used) next

/-- Reads a number with its lowest bit first. -/
def number : (count : Nat) → Reading Nat
  | 0 => return 0
  | count + 1 => do
    let low ← bit
    let high ← number count
    return low.toNat + 2 * high

/-- Goes to the beginning of a byte. -/
def align : Reading Unit := fun bits => .ok () bits.align

/-- Reads a byte where one begins. -/
def byte : Reading UInt8 := fun bits =>
  match bits.bytes with
  | [] => .error .short bits
  | byte :: rest => .ok byte (.behind (bits.begun + 1) rest)

end Reading

end Flate

end Blockwright
