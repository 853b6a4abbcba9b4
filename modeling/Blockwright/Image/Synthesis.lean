import Blockwright.Appearance.Profile
import Blockwright.Digest.Fnv
import Blockwright.Image.Basic

/-!
# Synthesis

A texture without a source is made from its profile: noise around a base color, then the motifs of
the profile in stamping order. A motif is a list of strokes, each of which shades one pixel.
-/

namespace Blockwright

/-- Color of a material without a hint. -/
def Material.baseColor : Material → Color
  | .wood => { red := 150, green := 111, blue := 51 }
  | .stone => { red := 128, green := 128, blue := 128 }
  | .metal => { red := 188, green := 190, blue := 198 }
  | .food => { red := 204, green := 124, blue := 62 }
  | .crystal => { red := 120, green := 200, blue := 220 }
  | .generic => { red := 160, green := 140, blue := 120 }

/-- A channel made brighter or darker, as far as it goes. -/
def Color.shadeChannel (amount : Int) (channel : UInt8) : UInt8 :=
  UInt8.ofNat (max 0 (min 255 (channel.toNat + amount))).toNat

/-- A color made brighter or darker, as far as it goes. -/
def Color.shade (color : Color) (amount : Int) : Color :=
  { red := shadeChannel amount color.red
    green := shadeChannel amount color.green
    blue := shadeChannel amount color.blue }

/-- A pixel made brighter or darker. -/
def Pixel.shade (amount : Int) (pixel : Pixel) : Pixel :=
  pixel.withColor (pixel.color.shade amount)

/-- One pixel to be shaded. -/
structure Stroke where
  x : Int
  y : Int
  amount : Int
deriving DecidableEq, Repr

/-- The stroke at a position. -/
def Stroke.on (x y : Nat) (amount : Int) : Stroke := { x := x, y := y, amount }

/-- The image with a stroke; strokes outside the image leave it as it is. -/
def Image.stroke (image : Image) (stroke : Stroke) : Image :=
  image.modify stroke.x stroke.y (Pixel.shade stroke.amount)

namespace Motif

/-- Name of a motif in seeds. -/
def title : Motif → String
  | .strata => "Strata"
  | .grain => "Grain"
  | .rings => "Rings"
  | .veins => "Veins"
  | .holes => "Holes"
  | .bubbles => "Bubbles"
  | .flakes => "Flakes"

/-- Size of a detail in an image with the given sides. -/
def unit (width height : Nat) : Nat := max 1 (min width height / 16)

/-- Noise as a number below a bound. -/
def noiseBelow (seeded : UInt32) (x y bound : Nat) : Nat :=
  (Fnv.noiseAt seeded (UInt32.ofNat x) (UInt32.ofNat y)).toNat % bound

/-- Every second band of rows is darker. -/
def strataStrokes (width height : Nat) (seed : String) : List Stroke :=
  let seeded := Fnv.seeded seed
  let band := 2 + (Fnv.hash seed).toNat % 3 * unit width height
  ((List.range height).filter fun y => y / band % 2 = 1).flatMap fun y =>
    let jitter := noiseBelow seeded 0 y 5
    (List.range width).map fun x => .on x y (-12 - jitter)

/-- About a quarter of the columns is darker. -/
def grainStrokes (width height : Nat) (seed : String) : List Stroke :=
  let seeded := Fnv.seeded seed
  ((List.range width).filter fun x => noiseBelow seeded x 0 4 = 0).flatMap fun x =>
    (List.range height).map fun y => .on x y (-10 - noiseBelow seeded x y 5)

/-- Four times the square of the distance of a position from the centre. -/
def centreDistance (width height x y : Nat) : Nat :=
  let across := (2 * x + 1 - width : Int).natAbs
  let down := (2 * y + 1 - height : Int).natAbs
  across * across + down * down

/-- Whether the whole part of half the root of a number is a multiple of a step. -/
def isOnRing (step width height distance : Nat) : Bool :=
  (List.range (width + height + 1)).any fun k =>
    let radius := step * k
    4 * (radius * radius) ≤ distance && distance < 4 * ((radius + 1) * (radius + 1))

/-- Rings around the centre are darker. -/
def ringsStrokes (width height : Nat) : List Stroke :=
  let step := 2 * unit width height + 1
  (List.range height).flatMap fun y =>
    ((List.range width).filter fun x =>
        isOnRing step width height (centreDistance width height x y)).map fun x =>
      .on x y (-18)

/-- A vein that wanders from a column down the remaining rows. -/
def veinStrokes (width : Nat) (seeded : UInt32) (vein : Nat) :
    (rows : Nat) → (x y : Nat) → List Stroke
  | 0, _, _ => []
  | rows + 1, x, y =>
    let turn := noiseBelow seeded vein (y + 1) 3
    let next := (max 0 (min (width - 1 : Int) (x + turn - 1))).toNat
    { x := x, y := y, amount := -30 } :: { x := x - 1, y := y, amount := -10 }
      :: { x := x + 1, y := y, amount := -10 }
      :: veinStrokes width seeded vein rows next (y + 1)

/-- Two dark veins with soft sides. -/
def veinsStrokes (width height : Nat) (seed : String) : List Stroke :=
  let seeded := Fnv.seeded seed
  [0, 1].flatMap fun vein =>
    veinStrokes width seeded vein height (noiseBelow seeded vein 0 width) 0

/-- A disk. -/
structure Disk where
  x : Nat
  y : Nat
  radius : Nat
deriving DecidableEq, Repr

/-- The three disks of a seed. -/
def disks (width height : Nat) (seed : String) : List Disk :=
  let seeded := Fnv.seeded seed
  [0, 1, 2].map fun i =>
    let hash := (Fnv.noiseAt seeded i 7).toNat
    { x := hash % width
      y := (hash >>> 12) % height
      radius := (1 + (hash >>> 24) % 2) * unit width height }

/-- The offsets from minus a radius to the radius. -/
def offsets (radius : Nat) : List Int :=
  (List.range (2 * radius + 1)).map fun (i : Nat) => (i : Int) - radius

/-- Strokes inside a circle, each with an amount by the square of its distance. -/
def diskStrokes (x y radius : Nat) (amount : Int → Int) : List Stroke :=
  (offsets radius).flatMap fun (dy : Int) =>
    ((offsets radius).filter fun (dx : Int) =>
        decide (dx * dx + dy * dy ≤ (radius * radius : Nat))).map fun dx =>
      { x := x + dx, y := y + dy, amount := amount (dx * dx + dy * dy) }

/-- Three dark disks. -/
def holesStrokes (width height : Nat) (seed : String) : List Stroke :=
  (disks width height seed).flatMap fun disk =>
    diskStrokes disk.x disk.y disk.radius fun _ => -40

/-- Three light disks with dark rims. -/
def bubblesStrokes (width height : Nat) (seed : String) : List Stroke :=
  (disks width height seed).flatMap fun disk =>
    diskStrokes disk.x disk.y (disk.radius + 1) fun distance =>
      if disk.radius * disk.radius ≤ distance then -20 else 25

/-- Dark specks. -/
def flakesStrokes (width height : Nat) (seed : String) : List Stroke :=
  let seeded := Fnv.seeded seed
  (List.range height).flatMap fun y =>
    ((List.range width).filter fun x => noiseBelow seeded x y 11 = 0).map fun x =>
      .on x y (-35)

/-- Strokes of a motif. -/
def strokes (motif : Motif) (width height : Nat) (seed : String) : List Stroke :=
  match motif with
  | .strata => strataStrokes width height seed
  | .grain => grainStrokes width height seed
  | .rings => ringsStrokes width height
  | .veins => veinsStrokes width height seed
  | .holes => holesStrokes width height seed
  | .bubbles => bubblesStrokes width height seed
  | .flakes => flakesStrokes width height seed

end Motif

namespace Image

/-- The image with a motif stamped on it. -/
def stamp (seed : String) (image : Image) (motif : Motif) : Image :=
  (motif.strokes image.width.toNat image.height.toNat (seed ++ ":" ++ motif.title)).foldl stroke
    image

/-- Noise around a base color. -/
def noise (seed : String) (base : Color) (amplitude : Nat) (width height : UInt32) : Image :=
  let seeded := Fnv.seeded seed
  ofFn width height fun x y =>
    Pixel.solid (base.shade (Motif.noiseBelow seeded x y (2 * amplitude + 1) - amplitude))

/-- The image with its first pixel shaded if all pixels are alike. -/
def ensureVaried (image : Image) : Image :=
  let first := image.get 0 0
  if image.pixels.all (· == first) then
    image.stroke { x := 0, y := 0, amount := if 127 < first.red then -40 else 40 }
  else image

/-- The texture of a profile. -/
def synthesize (seed : String) (profile : Profile) (hint : Option Color)
    (width height : UInt32) : Image :=
  let base := hint.getD profile.material.baseColor
  let plain := noise seed base profile.amplitude width height
  ensureVaried ((Motif.sort profile.motifs).foldl (stamp seed) plain)

end Image

end Blockwright
