import Blockwright.Digest.Checksum
import Blockwright.Flate.Inflate
import Blockwright.Text.Encoding
import Blockwright.Zip.Basic

/-!
# Members of zip archives

What the directory says about a member, and the bytes that the member holds. Bytes are stored as
they are or compressed, and guarded by a checksum.
-/

namespace Blockwright

namespace Zip

/-- Why the bytes of a member cannot be had. -/
inductive Fault where
  | encrypted
  /-- The directory does not lead to the record of a member. -/
  | badRecord
  /-- The bytes are compressed in a way that is not known. -/
  | unknownMethod
  /-- The compressed stream is not well formed. -/
  | badStream
  /-- The bytes do not have the checksum that the directory says. -/
  | badChecksum
deriving DecidableEq, Repr

def Fault.message : Fault → String
  | .encrypted => "unsupported Zip archive: Password required to decrypt file"
  | .badRecord => "invalid Zip archive: Invalid local file header"
  | .unknownMethod => "unsupported Zip archive: Compression method not supported"
  | .badStream => "corrupt deflate stream"
  | .badChecksum => "Invalid checksum"

/-- Whether a fault shows only when the bytes are read. -/
def Fault.isDamage : Fault → Bool
  | .badStream => true
  | .badChecksum => true
  | _ => false

/-- What the directory says about a member. -/
structure Member where
  name : String
  encrypted : Bool
  method : Nat
  checksum : Nat
  size : Nat
  /-- Where the record of the member is. -/
  position : Nat
deriving DecidableEq, Repr

namespace Member

/-- The name that is written as the given bytes. -/
def nameOf (flags : Nat) (bytes : List UInt8) : String :=
  if flags.testBit textBit then String.ofList (Text.ofDamaged bytes) else Text.ofCodePage bytes

/-- The data of the first extra field of a kind. -/
def extra? (kind : Nat) : List UInt8 → Option (List UInt8)
  | low :: high :: lowSize :: highSize :: rest =>
    let size := Bytes.ofLittleEndian [lowSize, highSize]
    if Bytes.ofLittleEndian [low, high] = kind then some (rest.take size)
    else extra? kind (rest.drop size)
  | _ => none
termination_by bytes => bytes.length
decreasing_by
  simp only [List.length_drop, List.length_cons]
  omega

/-- Kind of the extra field with the numbers that do not fit their fields. -/
def wideKind : Nat := 1

/-- A number of a record of the directory, or that in the extra field that it stands for, and what
follows in the extra field. -/
def widen (number : Nat) (wide : List UInt8) : Nat × List UInt8 :=
  if number = full 4 && 8 ≤ wide.length then (Bytes.ofLittleEndian (wide.take 8), wide.drop 8)
  else (number, wide)

/-- Reads a record of the directory of an archive that has bytes in front of it. -/
def read? (shift : Nat) (bytes : List UInt8) : Option (Member × List UInt8) := do
  let (record, rest) ← splitAt? directorySize bytes
  if record.take 4 != directorySignature then none
  let (name, rest) ← splitAt? (field 28 2 record) rest
  let (extra, rest) ← splitAt? (field 30 2 record) rest
  let (_, rest) ← splitAt? (field 32 2 record) rest
  let flags := field 8 2 record
  let (_, wide) := widen (field 24 4 record) ((extra? wideKind extra).getD [])
  let (size, wide) := widen (field 20 4 record) wide
  let (position, _) := widen (field 42 4 record) wide
  return ({
    name := nameOf flags name
    encrypted := flags.testBit 0
    method := field 10 2 record
    checksum := field 16 4 record
    size
    position := position + shift }, rest)

/-- Reads records of the directory. -/
def readAll? (shift : Nat) : (count : Nat) → List UInt8 → Option (List Member)
  | 0, _ => some []
  | count + 1, bytes => do
    let (member, rest) ← read? shift bytes
    let others ← readAll? shift count rest
    return member :: others

/-- The compressed bytes of a member of an archive. -/
def stored (archive : List UInt8) (member : Member) : Except Fault (List UInt8) :=
  if member.encrypted then .error .encrypted
  else
    match splitAt? memberSize (archive.drop member.position) with
    | none => .error .badRecord
    | some (record, rest) =>
      if record.take 4 != memberSignature then .error .badRecord
      else .ok ((rest.drop (field 26 2 record + field 28 2 record)).take member.size)

/-- The bytes of a member of an archive. -/
def bytes (archive : List UInt8) (member : Member) : Except Fault ByteArray := do
  let stored ← member.stored archive
  let bytes ←
    if member.method = 0 then pure (Bytes.ofList stored)
    else if member.method = 8 then
      match Flate.inflate none (.behind 0 stored) with
      | .ok (bytes, _) => pure bytes
      | .error _ => throw .badStream
    else throw .unknownMethod
  if (Crc32.ofBytes (Bytes.list bytes)).toNat = member.checksum then return bytes
  else throw .badChecksum

end Member

end Zip

end Blockwright
