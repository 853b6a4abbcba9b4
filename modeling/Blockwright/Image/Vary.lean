import Blockwright.Digest.Fnv
import Blockwright.Image.Basic

/-!
# Nudged pixels

A key chooses one of the pixels that are seen; it and its neighbours become a little brighter or
darker, so that different keys leave different images.
-/

namespace Blockwright

/-- A channel moved by an amount towards the middle. -/
def Pixel.nudgeChannel (amount channel : UInt8) : UInt8 :=
  if 127 < channel then channel - amount else channel + amount

/-- A pixel with its color moved towards the middle, if it is seen. -/
def Pixel.nudge (amount : UInt8) (pixel : Pixel) : Pixel :=
  if pixel.isVisible then
    { pixel with
      red := nudgeChannel amount pixel.red
      green := nudgeChannel amount pixel.green
      blue := nudgeChannel amount pixel.blue }
  else pixel

namespace Image

/-- Number of pixels as a word of 32 bits. -/
def pixelCount (image : Image) : UInt32 := UInt32.ofNat (area image.width image.height)

/-- Indices of the pixels that are seen. -/
def visible (image : Image) : List Nat :=
  (List.range image.pixelCount.toNat).filter fun i =>
    (image.pixels.getD i Pixel.clear).isVisible

/-- How far a hash moves pixels. -/
def nudgeAmount (hash : UInt32) : UInt8 :=
  UInt8.ofNat (3 + (hash >>> 16).toNat % 6)

/-- The image with the pixel at a position and its four neighbours nudged. -/
def nudgeAround (image : Image) (x y : Int) (amount : UInt8) : Image :=
  [(x, y), (x - 1, y), (x + 1, y), (x, y - 1), (x, y + 1)].foldl
    (fun result place => result.modify place.1 place.2 (Pixel.nudge amount)) image

/-- The image with pixels nudged where the key chooses; without pixels to be seen it stays. -/
def vary (image : Image) (key : String) : Image :=
  let hash := Fnv.hash key
  let visible := image.visible
  match visible[hash.toNat % visible.length]? with
  | some index =>
    image.nudgeAround (index % image.width.toNat : Nat) (index / image.width.toNat : Nat)
      (nudgeAmount hash)
  | none => image

end Image

end Blockwright
