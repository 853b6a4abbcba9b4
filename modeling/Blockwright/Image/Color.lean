import Blockwright.Bytes

/-!
# Colors

Colors with eight bits per channel, and their written form in specifications.
-/

namespace Blockwright

/-- A color with eight bits per channel. -/
structure Color where
  red : UInt8
  green : UInt8
  blue : UInt8
deriving DecidableEq, Repr

namespace Color

/-- The channel with the given hexadecimal digits. -/
def channel? (high low : Char) : Option UInt8 := do
  let high ← Bytes.hexValue? high
  let low ← Bytes.hexValue? low
  return UInt8.ofNat (high * 16 + low)

/-- The color written as a number sign and six hexadecimal digits. -/
def parse? (text : String) : Option Color :=
  match text.toList with
  | ['#', r1, r2, g1, g2, b1, b2] => do
    let red ← channel? r1 r2
    let green ← channel? g1 g2
    let blue ← channel? b1 b2
    return { red, green, blue }
  | _ => none

end Color

end Blockwright
