import Blockwright.Bytes

/-!
# SHA-256

The 256-bit digest of a byte string: the message is padded to whole 64-byte blocks, each block is
spread into a schedule of 64 words, and each schedule is folded into eight registers.
-/

namespace Blockwright

namespace Sha256

/-- The eight chaining words. -/
structure Registers where
  a : UInt32
  b : UInt32
  c : UInt32
  d : UInt32
  e : UInt32
  f : UInt32
  g : UInt32
  h : UInt32

/-- Square roots of the first eight primes, fractional part. -/
def start : Registers :=
  { a := 0x6a09e667, b := 0xbb67ae85, c := 0x3c6ef372, d := 0xa54ff53a
    e := 0x510e527f, f := 0x9b05688c, g := 0x1f83d9ab, h := 0x5be0cd19 }

/-- Cube roots of the first sixty-four primes, fractional part. -/
def roundConstants : List UInt32 := [
  0x428a2f98, 0x71374491, 0xb5c0fbcf, 0xe9b5dba5, 0x3956c25b, 0x59f111f1, 0x923f82a4, 0xab1c5ed5,
  0xd807aa98, 0x12835b01, 0x243185be, 0x550c7dc3, 0x72be5d74, 0x80deb1fe, 0x9bdc06a7, 0xc19bf174,
  0xe49b69c1, 0xefbe4786, 0x0fc19dc6, 0x240ca1cc, 0x2de92c6f, 0x4a7484aa, 0x5cb0a9dc, 0x76f988da,
  0x983e5152, 0xa831c66d, 0xb00327c8, 0xbf597fc7, 0xc6e00bf3, 0xd5a79147, 0x06ca6351, 0x14292967,
  0x27b70a85, 0x2e1b2138, 0x4d2c6dfc, 0x53380d13, 0x650a7354, 0x766a0abb, 0x81c2c92e, 0x92722c85,
  0xa2bfe8a1, 0xa81a664b, 0xc24b8b70, 0xc76c51a3, 0xd192e819, 0xd6990624, 0xf40e3585, 0x106aa070,
  0x19a4c116, 0x1e376c08, 0x2748774c, 0x34b0bcb5, 0x391c0cb3, 0x4ed8aa4a, 0x5b9cca4f, 0x682e6ff3,
  0x748f82ee, 0x78a5636f, 0x84c87814, 0x8cc70208, 0x90befffa, 0xa4506ceb, 0xbef9a3f7, 0xc67178f2]

/-- Rotation of a word to the right. -/
def rotateRight (word amount : UInt32) : UInt32 :=
  word >>> amount ||| word <<< (32 - amount)

/-- The words of bytes, most significant byte first. Less than four bytes at the end make no
word. -/
def words : List UInt8 → List UInt32
  | first :: second :: third :: fourth :: rest =>
    Bytes.ofBigEndian first second third fourth :: words rest
  | _ => []

/-- One more word in front of a schedule, from the words 16, 15, 7 and 2 places back. -/
def extend (words : List UInt32) : List UInt32 :=
  let back (distance : Nat) : UInt32 := words.getD (distance - 1) 0
  let early := back 15
  let late := back 2
  let mixedEarly := rotateRight early 7 ^^^ rotateRight early 18 ^^^ early >>> 3
  let mixedLate := rotateRight late 17 ^^^ rotateRight late 19 ^^^ late >>> 10
  (back 16 + mixedEarly + back 7 + mixedLate) :: words

/-- The sixty-four schedule words of a block. They are made with the latest in front. -/
def schedule (block : List UInt8) : List UInt32 :=
  (Nat.repeat extend 48 (words block).reverse).reverse

/-- One round with a schedule word and a round constant. -/
def round (r : Registers) (word constant : UInt32) : Registers :=
  let sumE := rotateRight r.e 6 ^^^ rotateRight r.e 11 ^^^ rotateRight r.e 25
  let choice := (r.e &&& r.f) ^^^ (~~~r.e &&& r.g)
  let first := r.h + sumE + choice + constant + word
  let sumA := rotateRight r.a 2 ^^^ rotateRight r.a 13 ^^^ rotateRight r.a 22
  let majority := (r.a &&& r.b) ^^^ (r.a &&& r.c) ^^^ (r.b &&& r.c)
  { a := first + (sumA + majority), b := r.a, c := r.b, d := r.c
    e := r.d + first, f := r.e, g := r.f, h := r.g }

/-- Folds a block into the chaining words. -/
def compress (r : Registers) (block : List UInt8) : Registers :=
  let last := ((schedule block).zip roundConstants).foldl
    (fun state (word, constant) => round state word constant) r
  { a := r.a + last.a, b := r.b + last.b, c := r.c + last.c, d := r.d + last.d
    e := r.e + last.e, f := r.f + last.f, g := r.g + last.g, h := r.h + last.h }

/-- Folds blocks of sixty-four bytes, one after the other. -/
def compressAll : (count : Nat) → Registers → List UInt8 → Registers
  | 0, r, _ => r
  | count + 1, r, bytes => compressAll count (compress r (bytes.take 64)) (bytes.drop 64)

/-- Delimiter bit, zeros and bit length that complete a message of the given size. -/
def padding (size : Nat) : List UInt8 :=
  let bits := size * 8
  0x80 :: (List.replicate ((119 - size % 64) % 64) (0 : UInt8)
    ++ Bytes.bigEndian (UInt32.ofNat (bits >>> 32)) ++ Bytes.bigEndian (UInt32.ofNat bits))

/-- The eight chaining words after the whole message. -/
def registers (message : ByteArray) : Registers :=
  let padded := Bytes.list message ++ padding message.size
  compressAll (padded.length / 64) start padded

/-- The thirty-two digest bytes of a message. -/
def digest (message : ByteArray) : List UInt8 :=
  let r := registers message
  [r.a, r.b, r.c, r.d, r.e, r.f, r.g, r.h].flatMap Bytes.bigEndian

/-- A digest always has thirty-two bytes. -/
@[simp]
theorem length_digest (message : ByteArray) : (digest message).length = 32 := by
  simp [digest, Bytes.bigEndian]

/-- The digest of a message in lower-case hexadecimal. -/
def hex (message : ByteArray) : String := Bytes.hex (digest message)

/-- The digest of a text's UTF-8 bytes in lower-case hexadecimal. -/
def hexOfText (text : String) : String := hex text.toUTF8

end Sha256

end Blockwright
