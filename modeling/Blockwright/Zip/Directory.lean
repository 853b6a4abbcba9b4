import Blockwright.Zip.Member

/-!
# Directories of zip archives

The last record stands at the end of an archive, in front of a comment. Anything may stand in front
of the archive; the first record of the directory tells how much does. Of several records that
could be the last, the latest that leads to a directory counts.
-/

namespace Blockwright

namespace Zip

/-- Where a pattern occurs in a byte string, latest first, with what stands there. Occurrences
found before are given. -/
def occurrencesFrom (pattern : List UInt8) :
    (position : Nat) → (found : List (Nat × List UInt8)) → List UInt8 → List (Nat × List UInt8)
  | _, found, [] => found
  | position, found, byte :: rest =>
    let found :=
      if pattern.isPrefixOf (byte :: rest) then (position, byte :: rest) :: found else found
    occurrencesFrom pattern (position + 1) found rest

/-- Where a pattern occurs in a byte string, latest first, with what stands there. -/
def occurrences (pattern bytes : List UInt8) : List (Nat × List UInt8) :=
  occurrencesFrom pattern 0 [] bytes

/-- Number of bytes in front of an archive: the first record of the directory stands between the
place that the last record says and that record itself. -/
def shift? (archive : List UInt8) (said last : Nat) : Option Nat :=
  ((occurrences directorySignature archive).reverse.find? fun found =>
    said ≤ found.1 && found.1 + 4 ≤ last).map fun found => found.1 - said

/-- Where a directory is, and how many members it lists. -/
structure Extent where
  /-- Number of bytes in front of the archive. -/
  shift : Nat
  /-- Where the directory is in the archive. -/
  position : Nat
  count : Nat

/-- What the last record says, which stands at a place. -/
def narrowExtent? (archive : List UInt8) (last : Nat) (record : List UInt8) : Option Extent := do
  let position := field 16 4 record
  let shift ←
    if field 10 2 record = 0 then some (last - position)
    else if last ≤ position then none
    else shift? archive position last
  if field 4 2 record != field 6 2 record then none
  return { shift, position, count := field 8 2 record }

/-- What the wide record in front of the last says, which stands at a place. -/
def wideExtent? (archive : List UInt8) (last : Nat) : Option Extent := do
  if last < locatorSize then none
  let (locator, _) ← splitAt? locatorSize (archive.drop (last - locatorSize))
  if locator.take 4 != locatorSignature then none
  let said := field 8 8 locator
  let (place, bytes) ← (occurrences wideSignature archive).reverse.find? fun found =>
    said ≤ found.1 && found.1 + wideSize ≤ last - locatorSize
  let (record, _) ← splitAt? wideSize bytes
  if field 16 4 record != field 20 4 record then none
  return { shift := place - said, position := field 48 8 record, count := field 32 8 record }

/-- Whether a number of the last record may be in a wide record. -/
def isFull (record : List UInt8) : Bool :=
  field 10 2 record = full 2 || field 16 4 record = full 4

/-- The members that the directory lists, if a place holds the last record of an archive. -/
def membersFrom? (archive : List UInt8) (last : Nat) (bytes : List UInt8) :
    Option (List Member) := do
  let (record, rest) ← splitAt? endSize bytes
  let _ ← splitAt? (field 20 2 record) rest
  let wide := if isFull record then wideExtent? archive last else none
  let extent ← wide.or (narrowExtent? archive last record)
  Member.readAll? extent.shift extent.count (archive.drop (extent.position + extent.shift))

/-- The members of an archive, in the order of its directory. -/
def members? (archive : List UInt8) : Option (List Member) :=
  (occurrences endSignature archive).findSome? fun found => membersFrom? archive found.1 found.2

end Zip

end Blockwright
