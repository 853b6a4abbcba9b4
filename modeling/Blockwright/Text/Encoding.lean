/-!
# Text from bytes

Byte strings that should be UTF-8 are shown with a replacement character for each part that is
not: as many bytes as could have been the beginning of a character, or else one byte. Names in old
archives are in code page 437: ASCII, and 128 characters of its own.
-/

namespace Blockwright

namespace Text

/-- Stands for bytes that are not a character. -/
def replacement : Char := '\ufffd'

/-- Bounds of the bytes that may follow a first byte. -/
def following (first : UInt8) : List (UInt8 × UInt8) :=
  let any : UInt8 × UInt8 := (0x80, 0xbf)
  if first < 0xe0 then [any]
  else if first = 0xe0 then [(0xa0, 0xbf), any]
  else if first = 0xed then [(0x80, 0x9f), any]
  else if first < 0xf0 then [any, any]
  else if first = 0xf0 then [(0x90, 0xbf), any, any]
  else if first = 0xf4 then [(0x80, 0x8f), any, any]
  else [any, any, any]

/-- The bytes at the beginning that lie within bounds, one by one. -/
def matching : List (UInt8 × UInt8) → List UInt8 → List UInt8
  | (low, high) :: bounds, byte :: rest =>
    if low ≤ byte && byte ≤ high then byte :: matching bounds rest else []
  | _, _ => []

/-- The bits of a first byte that belong to its character. -/
def leadingBits (first : UInt8) : Nat :=
  if first < 0xe0 then first.toNat % 32 else if first < 0xf0 then first.toNat % 16
  else first.toNat % 8

/-- The character at the beginning, if bytes are one, and the bytes behind the first that it
takes. -/
def scanCharacter (first : UInt8) (rest : List UInt8) : Option Char × List UInt8 :=
  if first < 0x80 then (Char.ofNat first.toNat, [])
  else if first < 0xc2 || 0xf4 < first then (none, [])
  else
    let taken := matching (following first) rest
    if taken.length = (following first).length then
      (Char.ofNat (taken.foldl (fun code byte => code * 64 + byte.toNat % 64)
        (leadingBits first)), taken)
    else (none, taken)

/-- The characters of a byte string, with a gap for each part that is none. -/
def characters : List UInt8 → List (Option Char)
  | [] => []
  | first :: rest =>
    let (character, taken) := scanCharacter first rest
    character :: characters (rest.drop taken.length)
termination_by bytes => bytes.length
decreasing_by
  simp only [List.length_drop, List.length_cons]
  omega

/-- The characters of a byte string, with replacements. -/
def ofDamaged (bytes : List UInt8) : List Char := (characters bytes).map (·.getD replacement)

/-- The characters of the bytes from 128 on. -/
def codePage437 : Array Char :=
  ("ÇüéâäàåçêëèïîìÄÅÉæÆôöòûùÿÖÜ¢£¥₧ƒáíóúñÑªº¿⌐¬½¼¡«»░▒▓│┤╡╢╖╕╣║╗╝╜╛┐└┴┬├─┼╞╟╚╔╩╦╠═╬╧╨╤╥╙╘╒╓╫╪┘┌█▄▌▐▀"
    ++ "αßΓπΣσµτΦΘΩδ∞φε∩≡±≥≤⌠⌡÷≈°∙·√ⁿ²■\u00a0").toList.toArray

/-- The character of a byte. -/
def codePageChar (byte : UInt8) : Char :=
  if byte < 128 then Char.ofNat byte.toNat else codePage437.getD (byte.toNat - 128) ' '

/-- The text of bytes in code page 437. -/
def ofCodePage (bytes : List UInt8) : String := String.ofList (bytes.map codePageChar)

end Text

end Blockwright
