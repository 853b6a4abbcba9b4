import Blockwright.Image.Hsv

/-!
# Recoloring

Every pixel that is seen moves towards a hue and a common saturation. The brighter a pixel, the
further it moves; pixels that are nearly black stay as they are.
-/

namespace Blockwright

namespace Recolor

/-- Saturation that pixels move towards. -/
def saturation : Float32 := 0.65

/-- Value below which a pixel stays as it is. -/
def darkest : Float32 := 0.08

/-- The angle at a share of the shorter way round between two angles. -/
def between (source target share : Float32) : Float32 :=
  let forward := Single.modulo (target - source) 360
  let way := if 180 < forward then forward - 360 else forward
  Single.modulo (source + way * share) 360

/-- The color moved towards a hue. A color without hue takes it at once. -/
def shift (hue strength : Float32) (color : Color) : Color :=
  let hsv := Hsv.ofColor color
  if hsv.value < darkest then color
  else
    let weight := strength * hsv.value
    Hsv.toColor {
      hue := if hsv.saturation ≤ Single.epsilon then hue else between hsv.hue hue weight
      saturation := hsv.saturation + (saturation - hsv.saturation) * weight
      value := hsv.value }

end Recolor

/-- The pixel moved towards a hue, if it is seen. -/
def Pixel.recolor (hue strength : Float32) (pixel : Pixel) : Pixel :=
  if pixel.isVisible then pixel.withColor (Recolor.shift hue strength pixel.color) else pixel

/-- The image with every pixel that is seen moved towards a hue. -/
def Image.recolor (image : Image) (hue strength : Float32) : Image :=
  image.map (Pixel.recolor hue (Single.clamp 0 1 strength))

end Blockwright
