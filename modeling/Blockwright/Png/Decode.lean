import Blockwright.Flate.Zlib
import Blockwright.Image.Color
import Blockwright.Png.Chunk
import Blockwright.Png.Filter

/-!
# Reading PNG images

The chunks are read one by one up to the end. Then the image data is inflated and its rows are
restored; nothing is returned unless all of it is there.
-/

namespace Blockwright

/-- A PNG image: its header and the bytes of its rows. -/
structure Png where
  header : Png.Header
  /-- Bytes of the rows, without filters. -/
  raw : List UInt8
  palette : List Color
  transparency : Option (List UInt8)
deriving DecidableEq, Repr

namespace Png

/-- What has been read of the chunks. -/
structure Contents where
  header : Option Header := none
  palette : List Color := []
  transparency : Option (List UInt8) := none
  data : List UInt8 := []
  ended : Bool := false
deriving DecidableEq, Repr

/-- The colors of a palette. -/
def readColors : List UInt8 → List Color
  | red :: green :: blue :: rest => { red, green, blue } :: readColors rest
  | _ => []

namespace Contents

/-- Reads a chunk. Chunks of other kinds count for nothing. -/
def read (contents : Contents) (chunk : Chunk) : Except Error Contents :=
  if chunk.kind = Chunk.header then
    if contents.header.isSome then .error (.invalidHeader .repeated)
    else (Header.ofBytes chunk.data).map fun header => { contents with header := some header }
  else if contents.header.isNone then .error .missingHeader
  else if chunk.kind = Chunk.palette then
    let size := chunk.data.length
    if size % 3 ≠ 0 ∨ size = 0 ∨ 256 * 3 < size then .error (.badPalette size)
    else .ok { contents with palette := readColors chunk.data }
  else if chunk.kind = Chunk.transparency then
    .ok { contents with transparency := some chunk.data }
  else if chunk.kind = Chunk.imageData then
    .ok { contents with data := contents.data ++ chunk.data }
  else if chunk.kind = Chunk.ending then .ok { contents with ended := true }
  else .ok contents

/-- Reads the chunks from an offset up to the end. -/
def readAll (offset : Nat) (contents : Contents) (bytes : List UInt8) :
    Except Error Contents :=
  if bytes.isEmpty then .ok contents
  else
    match _found : Chunk.read offset bytes with
    | .error error => .error error
    | .ok (chunk, rest) =>
      match contents.read chunk with
      | .error error => .error error
      | .ok contents =>
        if contents.ended then .ok contents
        else readAll (offset + 12 + chunk.data.length) contents rest
termination_by bytes.length
decreasing_by exact Chunk.length_of_read _found

/-- The header, if everything is there that the header asks for. -/
def complete (contents : Contents) : Except Error Header :=
  match contents.header with
  | none => .error .missingHeader
  | some header =>
    if !contents.ended then .error .missingEnd
    else if contents.data.isEmpty then .error .missingData
    else if header.color = .indexed ∧ contents.palette.isEmpty then .error .missingPalette
    else .ok header

end Contents

/-- Greatest number of bytes that can be addressed, and one more. -/
def addressLimit : Nat := UInt64.size

/-- The first bytes of image data, as many as expected and one more. -/
def inflateData (expected : Nat) (data : List UInt8) : Except Error (List UInt8) :=
  if addressLimit ≤ expected + 1 then .error .overflow
  else
    match Zlib.decode (expected + 1) data with
    | some out => .ok (Bytes.list out)
    | none => .error .inflate

/-- The image with the given contents. -/
def ofContents (contents : Contents) : Except Error Png := do
  let header ← contents.complete
  let expected := header.dataSize
  if addressLimit ≤ expected then
    throw (.invalidHeader (.dimensions header.width header.height))
  let data ← inflateData expected contents.data
  if data.length ≠ expected then throw (.dataLength expected data.length)
  let raw ← unfilter header.stride header.reach data
  return { header, raw, palette := contents.palette, transparency := contents.transparency }

/-- The image in a byte string. -/
def decode (bytes : List UInt8) : Except Error Png :=
  if signature.isPrefixOf bytes then do
    let contents ← Contents.readAll signature.length {} (bytes.drop signature.length)
    ofContents contents
  else .error .badSignature

end Png

end Blockwright
