import Blockwright.Image.Basic
import Blockwright.Single

/-!
# Hue, saturation and value

The other description of a color, in single precision: the hue in degrees, the saturation and the
value between zero and one.
-/

namespace Blockwright

/-- A color by hue, saturation and value. -/
structure Hsv where
  hue : Float32
  saturation : Float32
  value : Float32

namespace Hsv

/-- A channel as a share of its greatest value. -/
def share (channel : UInt8) : Float32 := Single.ofNat channel.toNat / 255

/-- The greater of two shares. -/
def greater (first second : Float32) : Float32 := if first < second then second else first

/-- The lesser of two shares. -/
def lesser (first second : Float32) : Float32 := if second < first then second else first

/-- Hue of a color with the given shares, greatest share and spread. -/
def hueOf (red green blue most spread : Float32) : Float32 :=
  if spread ≤ Single.epsilon then 0
  else if most == red then 60 * Single.modulo ((green - blue) / spread) 6
  else if most == green then 60 * ((blue - red) / spread + 2)
  else 60 * ((red - green) / spread + 4)

/-- The description of a color. -/
def ofColor (color : Color) : Hsv :=
  let red := share color.red
  let green := share color.green
  let blue := share color.blue
  let most := greater (greater red green) blue
  let spread := most - lesser (lesser red green) blue
  { hue := hueOf red green blue most spread
    saturation := if most ≤ Single.epsilon then 0 else spread / most
    value := most }

/-- The channel nearest to a share. -/
def channel (share : Float32) : UInt8 := (Single.clamp 0 255 (share * 255).round).toUInt8

/-- Shares of red, green and blue before the gray part is added: the strong, middle and absent
channels depend on the sixth of the circle. -/
def sector (sixth : UInt32) (strong middle : Float32) : Float32 × Float32 × Float32 :=
  if sixth = 0 then (strong, middle, 0)
  else if sixth = 1 then (middle, strong, 0)
  else if sixth = 2 then (0, strong, middle)
  else if sixth = 3 then (0, middle, strong)
  else if sixth = 4 then (middle, 0, strong)
  else (strong, 0, middle)

/-- The color with a description. -/
def toColor (hsv : Hsv) : Color :=
  let angle := Single.modulo hsv.hue 360
  let strong := hsv.value * hsv.saturation
  let middle := strong * (1 - (Single.modulo (angle / 60) 2 - 1).abs)
  let gray := hsv.value - strong
  let (red, green, blue) := sector (angle / 60).toUInt32 strong middle
  { red := channel (red + gray), green := channel (green + gray), blue := channel (blue + gray) }

end Hsv

end Blockwright
