import Blockwright.Decimal.Shortest

/-!
# Singles

The exact remainder of a single by a small whole number, and the text of a single. A remainder of a
number `m * 2 ^ e` is again such a number with no more bits, so no rounding takes place. A single is
written with the fewest digits that read back, always positionally.
-/

namespace Blockwright

namespace Single

/-- The distance from one to the next single. -/
def epsilon : Float32 := Float32.ofBits 0x34000000

/-- A natural number below `2 ^ 24`. -/
def ofNat (value : Nat) : Float32 := (UInt32.ofNat value).toFloat32

/-- The smaller of two numbers; a number that is undefined does not count. -/
def least (first second : Float32) : Float32 :=
  if first.isNaN then second
  else if second < first then second
  else first

/-- The number within bounds; undefined numbers stay as they are. -/
def clamp (low high value : Float32) : Float32 :=
  if value < low then low else if high < value then high else value

/-- The remainder of the size of a finite number. -/
def sizeRemainder (x : Binary) (divisor : Nat) : Float32 :=
  if 0 ≤ x.exponent then ofNat ((x.mantissa <<< x.exponent.toNat) % divisor)
  else (ofNat (x.mantissa % (divisor <<< (-x.exponent).toNat))).scaleB x.exponent

/-- The remainder with the sign of the number; undefined for numbers that are not finite. -/
def remainder (value : Float32) (divisor : Nat) : Float32 :=
  if value.isNaN || value.isInf then value - value
  else
    let size := sizeRemainder (Binary.ofSingle value) divisor
    if value.toBits >>> 31 == 1 then -size else size

/-- The remainder that is not negative. -/
def modulo (value : Float32) (divisor : Nat) : Float32 :=
  let rest := remainder value divisor
  if rest < 0 then rest + ofNat divisor else rest

/-- The text of a single; whole numbers have no point. -/
def text (value : Float32) : String :=
  if value.isNaN then "NaN"
  else
    let sign := if value.toBits >>> 31 == 1 then ['-'] else []
    let size :=
      if value.isInf then ['i', 'n', 'f']
      else if value == 0 then ['0']
      else
        let (digits, whole) := (Binary.ofSingle value).shortest.layout
        Decimal.positional digits whole []
    String.ofList (sign ++ size)

end Single

end Blockwright
