import Blockwright.Digest.Checksum
import Blockwright.Zip.Basic

/-!
# Writing zip archives

Members are stored as they are, with the first day that an archive can state.
-/

namespace Blockwright

namespace Zip

/-- The version of the format that a reader must know, in tenths. -/
def version : Nat := 20

/-- The version of the format that has wide records, in tenths. -/
def wideVersion : Nat := 45

/-- The first day that an archive can state. -/
def day : Nat := 33

/-- The fields that both records of a member share. -/
def sharedFields (name bytes : List UInt8) : List UInt8 :=
  let flags := if name.all (· < 128) then 0 else 1 <<< textBit
  Bytes.littleEndianNat 2 version ++ Bytes.littleEndianNat 2 flags ++ Bytes.littleEndianNat 2 0
    ++ Bytes.littleEndianNat 2 0 ++ Bytes.littleEndianNat 2 day
    ++ Bytes.littleEndianNat 4 (Crc32.ofBytes bytes).toNat
    ++ Bytes.littleEndianNat 4 bytes.length ++ Bytes.littleEndianNat 4 bytes.length
    ++ Bytes.littleEndianNat 2 name.length ++ Bytes.littleEndianNat 2 0

/-- The record of a member, with its bytes. -/
def memberRecord (name bytes shared : List UInt8) : List UInt8 :=
  memberSignature ++ shared ++ name ++ bytes

/-- The record of a member in the directory. -/
def directoryRecord (name shared : List UInt8) (position : Nat) : List UInt8 :=
  directorySignature ++ Bytes.littleEndianNat 2 version ++ shared ++ Bytes.littleEndianNat 10 0
    ++ Bytes.littleEndianNat 4 position ++ name

/-- The records of members that start at a position, and their records in the directory. -/
def records : (position : Nat) → List (String × ByteArray) → List UInt8 × List UInt8
  | _, [] => ([], [])
  | position, (name, bytes) :: rest =>
    let name := Bytes.list name.toUTF8
    let bytes := Bytes.list bytes
    let shared := sharedFields name bytes
    let record := memberRecord name bytes shared
    let (records, directory) := records (position + record.length) rest
    (record ++ records, directoryRecord name shared position ++ directory)

/-- The last record; numbers that do not fit their fields fill them. -/
def endRecord (count size position : Nat) : List UInt8 :=
  let count := Bytes.littleEndianNat 2 (min count (full 2))
  endSignature ++ Bytes.littleEndianNat 4 0 ++ count ++ count
    ++ Bytes.littleEndianNat 4 (min size (full 4))
    ++ Bytes.littleEndianNat 4 (min position (full 4)) ++ Bytes.littleEndianNat 2 0

/-- The wide record that follows the directory, and the locator that leads to it. -/
def wideRecord (count size position : Nat) : List UInt8 :=
  wideSignature ++ Bytes.littleEndianNat 8 (wideSize - 12) ++ Bytes.littleEndianNat 2 wideVersion
    ++ Bytes.littleEndianNat 2 wideVersion ++ Bytes.littleEndianNat 8 0
    ++ Bytes.littleEndianNat 8 count ++ Bytes.littleEndianNat 8 count
    ++ Bytes.littleEndianNat 8 size ++ Bytes.littleEndianNat 8 position
    ++ locatorSignature ++ Bytes.littleEndianNat 4 0
    ++ Bytes.littleEndianNat 8 (position + size) ++ Bytes.littleEndianNat 4 1

/-- What follows the directory: a wide record only where it is needed. -/
def ending (count size position : Nat) : List UInt8 :=
  if count < full 2 && size < full 4 && position < full 4 then endRecord count size position
  else wideRecord count size position ++ endRecord count size position

/-- The archive with the given members, in their order. -/
def encode (entries : List (String × ByteArray)) : List UInt8 :=
  let (records, directory) := records 0 entries
  records ++ directory ++ ending entries.length directory.length records.length

end Zip

end Blockwright
