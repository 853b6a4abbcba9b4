import Blockwright.Image.Fingerprint
import Blockwright.Image.Synthesis

/-!
# Strict synthesis

Synthesis that takes nothing for granted. It ends without an image where the bytes of the image
cannot be held, where a pixel lies behind the bytes that are there, and where a number is divided by
zero. Fingerprints are taken strictly as well: there are none where a pixel lies behind the bytes.
-/

namespace Blockwright

/-- The quotient of a number, unless the divisor is zero. -/
def quotient? (number divisor : Nat) : Option Nat :=
  if divisor = 0 then none else some (number / divisor)

/-- The remainder of a number, unless the divisor is zero. -/
def remainder? (number divisor : Nat) : Option Nat :=
  if divisor = 0 then none else some (number % divisor)

namespace Motif

/-- Noise as a number below a bound, unless the bound is zero. -/
def noiseBelow? (seeded : UInt32) (x y bound : Nat) : Option Nat :=
  remainder? (Fnv.noiseAt seeded (UInt32.ofNat x) (UInt32.ofNat y)).toNat bound

/-- Every second band of rows is darker. -/
def strataStrokes? (width height : Nat) (seed : String) : Option (List Stroke) := do
  let seeded := Fnv.seeded seed
  let band := 2 + (← remainder? (Fnv.hash seed).toNat 3) * unit width height
  let rows ← (List.range height).mapM fun y => do
    if (← remainder? (← quotient? y band) 2) = 1 then
      let jitter ← noiseBelow? seeded 0 y 5
      return (List.range width).map fun x => .on x y (-12 - jitter)
    else return []
  return rows.flatten

/-- About a quarter of the columns is darker. -/
def grainStrokes? (width height : Nat) (seed : String) : Option (List Stroke) := do
  let seeded := Fnv.seeded seed
  let columns ← (List.range width).mapM fun x => do
    if (← noiseBelow? seeded x 0 4) = 0 then
      (List.range height).mapM fun y => do
        return .on x y (-10 - (← noiseBelow? seeded x y 5))
    else return []
  return columns.flatten

/-- Rings around the centre are darker. -/
def ringsStrokes? (width height : Nat) : Option (List Stroke) := do
  let step := 2 * unit width height + 1
  let rows ← (List.range height).mapM fun y => do
    let places ← (List.range width).mapM fun x => do
      let radius := Nat.sqrt (centreDistance width height x y) / 2
      if (← remainder? radius step) = 0 then return [Stroke.on x y (-18)] else return []
    return places.flatten
  return rows.flatten

/-- A vein that wanders from a column down the remaining rows. -/
def veinStrokes? (width : Nat) (seeded : UInt32) (vein : Nat) :
    (rows : Nat) → (x y : Nat) → Option (List Stroke)
  | 0, _, _ => some []
  | rows + 1, x, y => do
    let turn ← noiseBelow? seeded vein (y + 1) 3
    let next := (max 0 (min (width - 1 : Int) (x + turn - 1))).toNat
    return { x := x, y := y, amount := -30 } :: { x := x - 1, y := y, amount := -10 }
      :: { x := x + 1, y := y, amount := -10 }
      :: (← veinStrokes? width seeded vein rows next (y + 1))

/-- Two dark veins with soft sides. -/
def veinsStrokes? (width height : Nat) (seed : String) : Option (List Stroke) := do
  let seeded := Fnv.seeded seed
  let veins ← [0, 1].mapM fun vein => do
    veinStrokes? width seeded vein height (← noiseBelow? seeded vein 0 width) 0
  return veins.flatten

/-- The three disks of a seed. -/
def disks? (width height : Nat) (seed : String) : Option (List Disk) :=
  let seeded := Fnv.seeded seed
  ([0, 1, 2] : List UInt32).mapM fun i => do
    let hash := (Fnv.noiseAt seeded i 7).toNat
    return {
      x := ← remainder? hash width
      y := ← remainder? (hash >>> 12) height
      radius := (1 + (← remainder? (hash >>> 24) 2)) * unit width height }

/-- Three dark disks. -/
def holesStrokes? (width height : Nat) (seed : String) : Option (List Stroke) := do
  return (← disks? width height seed).flatMap fun disk =>
    diskStrokes disk.x disk.y disk.radius fun _ => -40

/-- Three light disks with dark rims. -/
def bubblesStrokes? (width height : Nat) (seed : String) : Option (List Stroke) := do
  return (← disks? width height seed).flatMap fun disk =>
    diskStrokes disk.x disk.y (disk.radius + 1) fun distance =>
      if disk.radius * disk.radius ≤ distance then -20 else 25

/-- Dark specks. -/
def flakesStrokes? (width height : Nat) (seed : String) : Option (List Stroke) := do
  let seeded := Fnv.seeded seed
  let rows ← (List.range height).mapM fun y => do
    let places ← (List.range width).mapM fun x => do
      if (← noiseBelow? seeded x y 11) = 0 then return [Stroke.on x y (-35)] else return []
    return places.flatten
  return rows.flatten

/-- Strokes of a motif. -/
def strokes? (motif : Motif) (width height : Nat) (seed : String) : Option (List Stroke) :=
  match motif with
  | .strata => strataStrokes? width height seed
  | .grain => grainStrokes? width height seed
  | .rings => ringsStrokes? width height
  | .veins => veinsStrokes? width height seed
  | .holes => holesStrokes? width height seed
  | .bubbles => bubblesStrokes? width height seed
  | .flakes => flakesStrokes? width height seed

end Motif

namespace Image

/-- Number of bytes that cannot be held at once, half of those that words of 64 bits count. -/
def capacity : Nat := UInt64.size / 2

/-- A clear image, unless its bytes cannot be held. -/
def blank? (width height : UInt32) : Option Image := do
  let count ← byteCount? width height
  if count < capacity then
    return { width, height, pixels := Array.replicate (count / 4) Pixel.clear }
  else none

/-- The number of pixels in front of a position, unless their bytes do not fit a word of 64 bits. -/
def offset? (image : Image) (x y : Nat) : Option Nat :=
  let count := y * image.width.toNat + x
  if 4 * count < UInt64.size then some count else none

/-- The pixel at a position, unless it lies behind all pixels. -/
def get? (image : Image) (x y : Nat) : Option Pixel := do image.pixels[← image.offset? x y]?

/-- The image with another pixel at a position, unless that lies behind all pixels. -/
def set? (image : Image) (x y : Nat) (pixel : Pixel) : Option Image := do
  let offset ← image.offset? x y
  if _inside : offset < image.pixels.size then
    return { image with pixels := image.pixels.set offset pixel }
  else none

/-- The image with the pixels of a row set from a column on. -/
def fillRow? (pixel : Nat → Nat → Option Pixel) (y : Nat) :
    (columns x : Nat) → Image → Option Image
  | 0, _, image => some image
  | columns + 1, x, image => do
    fillRow? pixel y columns (x + 1) (← image.set? x y (← pixel x y))

/-- The image with the pixels of its rows set from a row on. -/
def fill? (pixel : Nat → Nat → Option Pixel) : (rows y : Nat) → Image → Option Image
  | 0, _, image => some image
  | rows + 1, y, image => do
    fill? pixel rows (y + 1) (← fillRow? pixel y image.width.toNat 0 image)

/-- Noise around a base color. -/
def noise? (seed : String) (base : Color) (amplitude : Nat) (width height : UInt32) :
    Option Image := do
  let seeded := Fnv.seeded seed
  let pixel := fun x y => do
    let value ← Motif.noiseBelow? seeded x y (2 * amplitude + 1)
    return Pixel.solid (base.shade (value - amplitude))
  fill? pixel height.toNat 0 (← blank? width height)

/-- The image with a stroke; strokes outside the image leave it as it is. -/
def stroke? (image : Image) (stroke : Stroke) : Option Image :=
  if 0 ≤ stroke.x ∧ 0 ≤ stroke.y ∧ stroke.x < image.width.toNat ∧
      stroke.y < image.height.toNat then do
    let x := stroke.x.toNat
    let y := stroke.y.toNat
    image.set? x y ((← image.get? x y).shade stroke.amount)
  else some image

/-- The image with a motif stamped on it. -/
def stamp? (seed : String) (image : Image) (motif : Motif) : Option Image := do
  let strokes ←
    motif.strokes? image.width.toNat image.height.toNat (seed ++ ":" ++ motif.title)
  strokes.foldlM stroke? image

/-- The image with its first pixel shaded if all pixels are alike. -/
def ensureVaried? (image : Image) : Option Image := do
  let first ← image.get? 0 0
  if image.pixels.all (· == first) then
    image.stroke? { x := 0, y := 0, amount := if 127 < first.red then -40 else 40 }
  else return image

/-- The texture of a profile, unless its bytes cannot be held, a pixel lies behind them or a number
is divided by zero. -/
def synthesize? (seed : String) (profile : Profile) (hint : Option Color)
    (width height : UInt32) : Option Image := do
  let base := hint.getD profile.material.baseColor
  let plain ← noise? seed base profile.amplitude width height
  let stamped ← (Motif.sort profile.motifs).foldlM (stamp? seed) plain
  stamped.ensureVaried?

end Image

namespace Fingerprint

/-- The sums with the pixels of a row from a column on, unless one lies behind all pixels. -/
def strictRow? (image : Image) (y : Nat) : (columns x : Nat) → Sums → Option Sums
  | 0, _, sums => some sums
  | columns + 1, x, sums => do
    strictRow? image y columns (x + 1) (sums.add (← image.get? x y))

/-- The sums with the pixels of some columns from a row on, unless one lies behind all pixels. -/
def strictRows? (image : Image) (columns x : Nat) : (rows y : Nat) → Sums → Option Sums
  | 0, _, sums => some sums
  | rows + 1, y, sums => do
    strictRows? image columns x rows (y + 1) (← strictRow? image y columns x sums)

/-- The sums of the pixels of a cell, unless one of its bounds is out of range or a pixel lies
behind all pixels. -/
def strictSums? (image : Image) (column row : UInt32) : Option Sums := do
  let left ← bound? column image.width
  let right ← bound? (column + 1) image.width
  let top ← bound? row image.height
  let bottom ← bound? (row + 1) image.height
  strictRows? image (right - left) left (bottom - top) top {}

/-- The fingerprint of an image, unless a bound of a cell is out of range or a pixel of a cell lies
behind all pixels. -/
def strict? (image : Image) : Option Fingerprint := do
  let rows ← [0, 1, 2, 3].mapM fun row =>
    [0, 1, 2, 3].mapM fun column => do return (← strictSums? image column row).cell
  return { cells := rows.flatten }

end Fingerprint

end Blockwright
