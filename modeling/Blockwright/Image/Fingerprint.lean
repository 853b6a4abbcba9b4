import Blockwright.Image.Basic

/-!
# Fingerprints

A fingerprint is a four by four grid of average colors in sixteen steps per channel. Images that
look nearly alike share theirs. The bounds of the cells are computed in words of 32 bits; an image
whose bounds do not fit them has no fingerprint. The averages of the pixels are computed in words of
64 bits. -/

namespace Blockwright

/-- A coarse picture of an image. -/
structure Fingerprint where
  /-- Cells, row by row. -/
  cells : List Pixel
deriving DecidableEq, Repr

namespace Fingerprint

/-- Where a cell begins along a side, unless the product of its index with the side does not fit a
word of 32 bits. The cell with the next index begins where it ends. -/
def bound? (index side : UInt32) : Option Nat :=
  let product := index.toNat * side.toNat
  if product < UInt32.size then some (product / 4) else none

/-- Sums of the channels of pixels. -/
structure Sums where
  red : UInt64 := 0
  green : UInt64 := 0
  blue : UInt64 := 0
  alpha : UInt64 := 0
  count : UInt64 := 0
deriving DecidableEq, Repr

namespace Sums

/-- The sums with one more pixel. -/
def add (sums : Sums) (pixel : Pixel) : Sums where
  red := sums.red + pixel.red.toUInt64
  green := sums.green + pixel.green.toUInt64
  blue := sums.blue + pixel.blue.toUInt64
  alpha := sums.alpha + pixel.alpha.toUInt64
  count := sums.count + 1

/-- The average of a channel in sixteen steps. -/
def average (sums : Sums) (channel : Sums → UInt64) : UInt8 :=
  ((channel sums / sums.count) >>> 4).toUInt8

/-- The average of pixels; without pixels it is clear. -/
def cell (sums : Sums) : Pixel :=
  if sums.count = 0 then Pixel.clear
  else
    { red := sums.average Sums.red
      green := sums.average Sums.green
      blue := sums.average Sums.blue
      alpha := sums.average Sums.alpha }

end Sums

/-- The sums with the pixels of a row from a column on. -/
def addRow (image : Image) (y : Nat) : (columns x : Nat) → Sums → Sums
  | 0, _, sums => sums
  | columns + 1, x, sums => addRow image y columns (x + 1) (sums.add (image.get x y))

/-- The sums with the pixels of some columns, from a row on. -/
def addRows (image : Image) (columns x : Nat) : (rows y : Nat) → Sums → Sums
  | 0, _, sums => sums
  | rows + 1, y, sums => addRows image columns x rows (y + 1) (addRow image y columns x sums)

/-- The sums of the pixels of a cell, unless one of its bounds is out of range. -/
def cellSums? (image : Image) (column row : UInt32) : Option Sums := do
  let left ← bound? column image.width
  let right ← bound? (column + 1) image.width
  let top ← bound? row image.height
  let bottom ← bound? (row + 1) image.height
  return addRows image (right - left) left (bottom - top) top {}

/-- The fingerprint of an image, unless a bound of a cell is out of range. -/
def ofImage? (image : Image) : Option Fingerprint := do
  let rows ← [0, 1, 2, 3].mapM fun row =>
    [0, 1, 2, 3].mapM fun column => do return (← cellSums? image column row).cell
  return { cells := rows.flatten }

end Fingerprint

end Blockwright
