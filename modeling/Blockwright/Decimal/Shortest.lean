/-!
# Shortest decimals

The decimal with the fewest digits among those that a binary floating-point number is nearest to.
The candidates on each decimal grid are the two neighbours of the number; the coarsest grid with
a candidate wins, then the nearer candidate, then the even one.
-/

namespace Blockwright

/-- The number `digits · 10 ^ exponent`. -/
structure Decimal where
  digits : Nat
  /-- Power of ten of the last digit. -/
  exponent : Int
deriving DecidableEq, Repr

/-- A positive binary floating-point number together with the gap below it. -/
structure Binary where
  mantissa : Nat
  exponent : Int
  /-- Whether the next smaller number is only half a unit away. -/
  narrow : Bool
deriving Repr

namespace Binary

/-- Numerator of the number in units of a grid, with the matching denominator: in units of
`10 ^ place`, the number is `4 · mantissa · scale / denominator`. -/
def scale (x : Binary) (place : Int) : Nat × Nat :=
  let power := x.exponent - 2
  (Nat.pow 2 power.toNat * Nat.pow 10 (-place).toNat,
    Nat.pow 2 (-power).toNat * Nat.pow 10 place.toNat)

/-- Whether the decimal `candidate · 10 ^ place` is nearer to the number than to any other. -/
def rounds (x : Binary) (place : Int) (candidate : Nat) : Bool :=
  let (unit, denominator) := x.scale place
  let below := if x.narrow then 1 else 2
  let value := candidate * denominator
  let low := (4 * x.mantissa - below) * unit
  let high := (4 * x.mantissa + 2) * unit
  if x.mantissa % 2 == 0 then low ≤ value && value ≤ high else low < value && value < high

/-- The neighbour of the number on a grid that is to be written, if one reads back. -/
def nearest? (x : Binary) (place : Int) : Option Nat :=
  let (unit, denominator) := x.scale place
  let exact := 4 * x.mantissa * unit
  let lower := exact / denominator
  match x.rounds place lower && lower != 0, x.rounds place (lower + 1) with
  | true, true =>
    let twice := 2 * (exact % denominator)
    if twice < denominator then some lower
    else if denominator < twice then some (lower + 1)
    else some (if lower % 2 == 0 then lower else lower + 1)
  | true, false => some lower
  | false, true => some (lower + 1)
  | false, false => none

/-- The place just above the leading digit: the number is below `10 ^ magnitude`, and at least a
tenth of it. -/
def magnitude (x : Binary) : Int :=
  let (unit, denominator) := x.scale (-400)
  (toString (4 * x.mantissa * unit / denominator)).length - 400

/-- The first grid with a candidate, from a number of digits on. -/
def search (x : Binary) (magnitude : Int) : (fuel digits : Nat) → Decimal
  | 0, digits => { digits := 0, exponent := magnitude - digits }
  | fuel + 1, digits =>
    match x.nearest? (magnitude - digits) with
    | some value => { digits := value, exponent := magnitude - digits }
    | none => search x magnitude fuel (digits + 1)

/-- The decimal with the fewest digits that reads back as the number. -/
def shortest (x : Binary) : Decimal := x.search x.magnitude 18 1

end Binary

/-- A finite double other than zero, without its sign. -/
def Binary.ofDouble (x : Float) : Binary :=
  let bits := x.toBits.toNat
  let fraction := bits % (1 <<< 52)
  let biased := (bits >>> 52) % (1 <<< 11)
  if biased == 0 then { mantissa := fraction, exponent := -1074, narrow := false }
  else
    { mantissa := 1 <<< 52 + fraction, exponent := Int.ofNat biased - 1075
      narrow := fraction == 0 && biased != 1 }

/-- A finite single other than zero, without its sign. -/
def Binary.ofSingle (x : Float32) : Binary :=
  let bits := x.toBits.toNat
  let fraction := bits % (1 <<< 23)
  let biased := (bits >>> 23) % (1 <<< 8)
  if biased == 0 then { mantissa := fraction, exponent := -149, narrow := false }
  else
    { mantissa := 1 <<< 23 + fraction, exponent := Int.ofNat biased - 150
      narrow := fraction == 0 && biased != 1 }

namespace Decimal

/-- Drops zeros at the end of the digits, keeping the number. -/
def trimZeros : (fuel : Nat) → Decimal → Decimal
  | 0, d => d
  | fuel + 1, d =>
    if d.digits != 0 && d.digits % 10 == 0 then
      trimZeros fuel { digits := d.digits / 10, exponent := d.exponent + 1 }
    else d

/-- The digit characters, and how many of them stand before the point; the count is negative
for a number below a tenth. -/
def layout (d : Decimal) : List Char × Int :=
  let trimmed := d.trimZeros 20
  let digits := (toString trimmed.digits).toList
  (digits, digits.length + trimmed.exponent)

/-- The digits with a point after the given number of them, filled up with zeros. A whole number
has the given text as its fraction. -/
def positional (digits : List Char) (whole : Int) (noFraction : List Char) : List Char :=
  if digits.length ≤ whole then
    digits ++ List.replicate (whole - digits.length).toNat '0' ++ noFraction
  else if 0 < whole then
    digits.take whole.toNat ++ '.' :: digits.drop whole.toNat
  else '0' :: '.' :: (List.replicate (-whole).toNat '0' ++ digits)

/-- The digits with a point after the first, and the power of ten with its sign. -/
def scientific (digits : List Char) (whole : Int) : List Char :=
  let power := whole - 1
  let mantissa :=
    match digits with
    | first :: second :: rest => first :: '.' :: second :: rest
    | _ => digits
  mantissa ++ 'e' :: (if power < 0 then '-' else '+') :: (toString power.natAbs).toList

end Decimal

end Blockwright
