import Blockwright.Png.Basic

/-!
# Filters

A row is written as differences from predictions. The prediction of a byte is made from the byte
on its left, the one above it and the one above that on its left; bytes outside are zero.
-/

namespace Blockwright

namespace Png

/-- How the bytes of a row are predicted. -/
inductive Filter where
  | plain
  | fromLeft
  | fromAbove
  | fromAverage
  /-- As the one of the three that is nearest to left plus above minus corner. -/
  | fromNearest
deriving DecidableEq, Repr

namespace Filter

/-- The filter with the given number. -/
def ofByte? (byte : UInt8) : Option Filter :=
  if byte = 0 then some .plain
  else if byte = 1 then some .fromLeft
  else if byte = 2 then some .fromAbove
  else if byte = 3 then some .fromAverage
  else if byte = 4 then some .fromNearest
  else none

/-- Number of a filter. -/
def byte : Filter → UInt8
  | .plain => 0
  | .fromLeft => 1
  | .fromAbove => 2
  | .fromAverage => 3
  | .fromNearest => 4

theorem ofByte?_byte (filter : Filter) : ofByte? filter.byte = some filter := by
  cases filter <;> rfl

/-- The one of three bytes that is nearest to left plus above minus corner; left before above
before corner. -/
def nearestOf (left above corner : UInt8) : UInt8 :=
  let estimate : Int := left.toNat + above.toNat - corner.toNat
  let toLeft := (estimate - left.toNat).natAbs
  let toAbove := (estimate - above.toNat).natAbs
  let toCorner := (estimate - corner.toNat).natAbs
  if toLeft ≤ toAbove ∧ toLeft ≤ toCorner then left
  else if toAbove ≤ toCorner then above
  else corner

/-- The prediction of a byte. -/
def predict (filter : Filter) (left above corner : UInt8) : UInt8 :=
  match filter with
  | .plain => 0
  | .fromLeft => left
  | .fromAbove => above
  | .fromAverage => UInt8.ofNat ((left.toNat + above.toNat) / 2)
  | .fromNearest => nearestOf left above corner

/-- The bytes of a row from its differences. The bytes on the left of those to come are given, and
so are the corners and the bytes above. -/
def restoreFrom (filter : Filter) :
    (lefts corners aboves differences : List UInt8) → List UInt8
  | left :: lefts, corner :: corners, above :: aboves, difference :: differences =>
    let byte := difference + filter.predict left above corner
    byte :: restoreFrom filter (lefts ++ [byte]) corners aboves differences
  | _, _, _, _ => []

/-- The bytes of a row below another. -/
def restore (filter : Filter) (reach : Nat) (above differences : List UInt8) : List UInt8 :=
  let outside := List.replicate reach 0
  restoreFrom filter outside (outside ++ above) above differences

/-- The differences of a row. The bytes on the left of those to come are given, and so are the
corners and the bytes above. -/
def applyFrom (filter : Filter) : (lefts corners aboves row : List UInt8) → List UInt8
  | left :: lefts, corner :: corners, above :: aboves, byte :: row =>
    (byte - filter.predict left above corner)
      :: applyFrom filter (lefts ++ [byte]) corners aboves row
  | _, _, _, _ => []

/-- The differences of a row below another. -/
def apply (filter : Filter) (reach : Nat) (above row : List UInt8) : List UInt8 :=
  let outside := List.replicate reach 0
  applyFrom filter outside (outside ++ above) above row

end Filter

/-- The rows of image data, each of which has its filter in front. -/
def unfilterRows (stride reach : Nat) :
    (count : Nat) → (above data : List UInt8) → Except Error (List (List UInt8))
  | 0, _, _ => .ok []
  | _ + 1, _, [] => .ok []
  | count + 1, above, byte :: data =>
    match Filter.ofByte? byte with
    | none => .error (.badFilter byte)
    | some filter => do
      let row := filter.restore reach above (data.take stride)
      let rows ← unfilterRows stride reach count row (data.drop stride)
      return row :: rows

/-- The bytes of all rows of image data. -/
def unfilter (stride reach : Nat) (data : List UInt8) : Except Error (List UInt8) := do
  let count := data.length / (stride + 1)
  return (← unfilterRows stride reach count (List.replicate stride 0) data).flatten

end Png

end Blockwright
