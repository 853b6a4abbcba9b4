import Blockwright.Bytes

/-!
# Records of zip archives

An archive holds a record for each member with its bytes, then a directory with a record for each
member, then a record that says where the directory is. Numbers are in little-endian order. A
number that does not fit its field is in another record: that of a member in an extra field, that of
the last record in a wide record in front of it, with a locator that says where the wide record is.
-/

namespace Blockwright

namespace Zip

/-- What the record of a member starts with. -/
def memberSignature : List UInt8 := [0x50, 0x4b, 3, 4]

/-- What a record of the directory starts with. -/
def directorySignature : List UInt8 := [0x50, 0x4b, 1, 2]

/-- What the last record starts with. -/
def endSignature : List UInt8 := [0x50, 0x4b, 5, 6]

/-- What the wide record starts with. -/
def wideSignature : List UInt8 := [0x50, 0x4b, 6, 6]

/-- What the locator starts with. -/
def locatorSignature : List UInt8 := [0x50, 0x4b, 6, 7]

/-- Size of the record of a member without its name and its extra field. -/
def memberSize : Nat := 30

/-- Size of a record of the directory without its name, extra field and comment. -/
def directorySize : Nat := 46

/-- Size of the last record without its comment. -/
def endSize : Nat := 22

/-- Size of the wide record. -/
def wideSize : Nat := 56

/-- Size of the locator. -/
def locatorSize : Nat := 20

/-- Largest number in a field of a size. It stands for a number that is elsewhere. -/
def full (size : Nat) : Nat := Nat.pow 256 size - 1

/-- Bit that says that a name is UTF-8. -/
def textBit : Nat := 11

/-- The bytes in front of a position and those from it on, if there are so many. -/
def splitAt? (count : Nat) (bytes : List UInt8) : Option (List UInt8 × List UInt8) :=
  if count = 0 || !(bytes.drop (count - 1)).isEmpty then some (bytes.take count, bytes.drop count)
  else none

theorem splitAt?_append {front rest : List UInt8} :
    splitAt? front.length (front ++ rest) = some (front, rest) := by
  unfold splitAt?
  have enough :
      (front.length = 0 || !((front ++ rest).drop (front.length - 1)).isEmpty) = true := by
    cases front with
    | nil => rfl
    | cons byte front =>
      simp only [List.length_cons, Nat.add_sub_cancel, Bool.or_eq_true, decide_eq_true_eq,
        Bool.not_eq_true', List.isEmpty_eq_false_iff, ne_eq, List.drop_eq_nil_iff,
        List.length_append]
      omega
  rw [if_pos enough]
  simp

/-- The number at a position of a record. -/
def field (position size : Nat) (record : List UInt8) : Nat :=
  Bytes.ofLittleEndian ((record.drop position).take size)

end Zip

end Blockwright
