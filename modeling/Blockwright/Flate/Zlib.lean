import Blockwright.Digest.Checksum
import Blockwright.Flate.Inflate

/-!
# Wrapped streams

A compressed stream with two bytes in front that tell the method and the size of the window, and a
checksum of the bytes behind it. The simplest compressed stream of a byte string has blocks that
hold its bytes as they are. -/

namespace Blockwright

namespace Flate

/-- Most bytes that a stored block holds. -/
def storedLimit : Nat := 65535

def storedBlock (last : Bool) (bytes : List UInt8) : List UInt8 :=
  let size := Bytes.littleEndianNat 2 bytes.length
  (if last then 1 else 0) :: (size ++ size.map (~~~ ·) ++ bytes)

/-- The stream of stored blocks of a byte string. -/
def store (bytes : List UInt8) : List UInt8 :=
  if bytes.length ≤ storedLimit then storedBlock true bytes
  else storedBlock false (bytes.take storedLimit) ++ store (bytes.drop storedLimit)
termination_by bytes.length
decreasing_by
  simp only [List.length_drop, storedLimit] at *
  omega

end Flate

namespace Zlib

/-- Whether two bytes may stand in front: the method is the eighth, the window has at most
`2 ^ 15` bytes, no dictionary is needed, and both together are a multiple of 31. -/
def isHeader (method flags : UInt8) : Bool :=
  method &&& 15 == 8 && method >>> 4 ≤ 7 && flags &&& 32 == 0
    && (method.toNat * 256 + flags.toNat) % 31 == 0

/-- Reads a checksum. -/
def readSum : Flate.Reading UInt32 := do
  let first ← Flate.Reading.byte
  let second ← Flate.Reading.byte
  let third ← Flate.Reading.byte
  let fourth ← Flate.Reading.byte
  return Bytes.ofBigEndian first second third fourth

/-- The bytes of a wrapped stream, for a reader that wants a number of them. -/
def readAll (wanted : Nat) : List UInt8 → Except Flate.Stop ByteArray
  | method :: flags :: stream => do
    unless isHeader method flags do throw .faulty
    let (out, bits) ← Flate.inflate (some wanted) (.behind 2 stream)
    let (sum, _) ← Flate.readOn (some wanted) out readSum bits
    if sum = Adler32.ofBytes (Bytes.list out) then return out else throw .faulty
  | _ => .error .faulty

/-- The bytes of a wrapped stream, or its first ones if it has more than are wanted. There are none
if the reader meets a fault. -/
def decode (wanted : Nat) (stream : List UInt8) : Option ByteArray :=
  match readAll wanted stream with
  | .ok out => some (out.extract 0 wanted)
  | .error (.full out) => some (out.extract 0 wanted)
  | .error .faulty => none

/-- The wrapped stream of a byte string, in stored blocks. -/
def encode (bytes : List UInt8) : List UInt8 :=
  0x78 :: 0x01 :: (Flate.store bytes ++ Bytes.bigEndian (Adler32.ofBytes bytes))

end Zlib

end Blockwright
