import Blockwright.Digest.Checksum
import Blockwright.Png.Basic
import Blockwright.Text.Encoding

/-!
# Chunks

Behind its signature an image is a list of chunks: length, kind, data and a checksum of kind and
data.
-/

namespace Blockwright

namespace Png

/-- The bytes that every image starts with. -/
def signature : List UInt8 := [0x89, 0x50, 0x4e, 0x47, 0x0d, 0x0a, 0x1a, 0x0a]

/-- A chunk. -/
structure Chunk where
  /-- The four bytes that name its kind. -/
  kind : List UInt8
  data : List UInt8
deriving DecidableEq, Repr

namespace Chunk

/-- Kind of the header. -/
def header : List UInt8 := [0x49, 0x48, 0x44, 0x52]

/-- Kind of the palette. -/
def palette : List UInt8 := [0x50, 0x4c, 0x54, 0x45]

/-- Kind of the transparency of a palette or color. -/
def transparency : List UInt8 := [0x74, 0x52, 0x4e, 0x53]

/-- Kind of the image data. -/
def imageData : List UInt8 := [0x49, 0x44, 0x41, 0x54]

/-- Kind of the end. -/
def ending : List UInt8 := [0x49, 0x45, 0x4e, 0x44]

/-- Checksum of a chunk. -/
def checksum (chunk : Chunk) : UInt32 := Crc32.ofBytes (chunk.kind ++ chunk.data)

/-- The bytes of a chunk. -/
def bytes (chunk : Chunk) : List UInt8 :=
  Bytes.bigEndian (UInt32.ofNat chunk.data.length) ++ chunk.kind ++ chunk.data
    ++ Bytes.bigEndian chunk.checksum

/-- The chunk at the beginning of a byte string that stands at an offset, its stated checksum, and
what follows it. -/
def split (offset : Nat) (bytes : List UInt8) : Except Error (Chunk × UInt32 × List UInt8) :=
  let size := (Bytes.wordAt bytes).toNat
  if bytes.length < size + 12 then .error (.truncated offset)
  else
    let rest := bytes.drop 4
    let behind := rest.drop (4 + size)
    .ok ({ kind := rest.take 4, data := (rest.drop 4).take size }, Bytes.wordAt behind,
      behind.drop 4)

/-- A chunk is longer than nothing. -/
theorem length_of_split {offset : Nat} {bytes rest : List UInt8} {chunk : Chunk} {word : UInt32}
    (h : split offset bytes = .ok (chunk, word, rest)) : rest.length < bytes.length := by
  unfold split at h
  dsimp only at h
  split at h
  · cases h
  · cases h
    simp only [List.length_drop]
    omega

/-- The chunk at the beginning of a byte string, if its checksum is right, and what follows it. -/
def read (offset : Nat) (bytes : List UInt8) : Except Error (Chunk × List UInt8) :=
  match split offset bytes with
  | .error error => .error error
  | .ok (chunk, stated, rest) =>
    if chunk.checksum = stated then .ok (chunk, rest)
    else .error (.badChecksum (String.ofList (Text.ofDamaged chunk.kind)))

theorem length_of_read {offset : Nat} {bytes rest : List UInt8} {chunk : Chunk}
    (h : read offset bytes = .ok (chunk, rest)) : rest.length < bytes.length := by
  unfold read at h
  split at h
  · cases h
  · rename_i found
    split at h
    · cases h
      exact length_of_split found
    · cases h

end Chunk

end Png

end Blockwright
