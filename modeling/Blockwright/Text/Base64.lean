/-!
# Base 64

Bytes as text: three bytes become four characters of six bits each, and one or two bytes at the end
are filled up with zeros and marked by equals signs.
-/

namespace Blockwright

namespace Text

/-- The character of a number below 64. -/
def base64Char (value : Nat) : Char :=
  if value < 26 then Char.ofNat (65 + value)
  else if value < 52 then Char.ofNat (71 + value)
  else if value < 62 then Char.ofNat (value - 4)
  else if value = 62 then '+'
  else '/'

/-- The four characters of a number below `2 ^ 24`. -/
def base64Group (value : Nat) : List Char :=
  [base64Char (value >>> 18), base64Char ((value >>> 12) % 64), base64Char ((value >>> 6) % 64),
    base64Char (value % 64)]

/-- The number with the given bytes. -/
def base64Value (first second third : UInt8) : Nat :=
  first.toNat <<< 16 + second.toNat <<< 8 + third.toNat

/-- The characters of bytes in front of the given ones, latest first. -/
def base64From (done : List Char) : List UInt8 → List Char
  | first :: second :: third :: rest =>
    base64From ((base64Group (base64Value first second third)).reverse ++ done) rest
  | [first, second] =>
    '=' :: (((base64Group (base64Value first second 0)).take 3).reverse ++ done)
  | [first] => '=' :: '=' :: (((base64Group (base64Value first 0 0)).take 2).reverse ++ done)
  | [] => done

/-- The text of bytes. -/
def base64 (bytes : List UInt8) : String := String.ofList (base64From [] bytes).reverse

end Text

end Blockwright
