import Blockwright.Json.Value
import Blockwright.Bytes

/-!
# Written forms of JSON values

The canonical form has no white space; the pretty form has a line per element or member, two
spaces per level and a final line feed. Both list the members of an object in ascending order, and
escape quotes, backslashes and control characters only.
-/

namespace Blockwright

namespace Json

/-- The written form of a double: a whole number ends in `.0`, and powers of ten from `-5` to
`15` are written positionally. -/
def realChars (value : Float) : List Char :=
  let sign := if value.toBits >>> 63 == 1 then ['-'] else []
  if value == 0.0 then sign ++ ['0', '.', '0']
  else
    let (digits, whole) := (Binary.ofDouble value).shortest.layout
    sign ++
      if -5 < whole && whole ≤ 16 then Decimal.positional digits whole ['.', '0']
      else Decimal.scientific digits whole

/-- The written form of an integer. -/
def integerChars (value : Int) : List Char :=
  if value < 0 then '-' :: (toString value.natAbs).toList else (toString value.natAbs).toList

/-- The written form of a number. -/
def numberChars : Number → List Char
  | .integer value => integerChars value
  | .real value => realChars value

/-- A character as it stands inside quotes. -/
def escape (c : Char) : List Char :=
  if c = '"' then ['\\', '"']
  else if c = '\\' then ['\\', '\\']
  else if 0x20 ≤ c.toNat then [c]
  else if c.toNat = 8 then ['\\', 'b']
  else if c.toNat = 9 then ['\\', 't']
  else if c.toNat = 10 then ['\\', 'n']
  else if c.toNat = 12 then ['\\', 'f']
  else if c.toNat = 13 then ['\\', 'r']
  else '\\' :: 'u' :: '0' :: '0' :: Bytes.hexByte (UInt8.ofNat c.toNat)

/-- A text in quotes. -/
def quoted (value : String) : List Char :=
  '"' :: (value.toList.flatMap escape ++ ['"'])

mutual

/-- The form without white space. -/
def compactChars : Json → List Char
  | null => ['n', 'u', 'l', 'l']
  | bool true => ['t', 'r', 'u', 'e']
  | bool false => ['f', 'a', 'l', 's', 'e']
  | number value => numberChars value
  | text value => quoted value
  | array [] => ['[', ']']
  | array (first :: rest) => '[' :: (compactChars first ++ compactElements rest)
  | object [] => ['{', '}']
  | object ((key, value) :: rest) =>
    '{' :: (quoted key ++ ':' :: (compactChars value ++ compactMembers rest))

/-- The elements after the first, and the closing bracket. -/
def compactElements : List Json → List Char
  | [] => [']']
  | element :: rest => ',' :: (compactChars element ++ compactElements rest)

/-- The members after the first, and the closing brace. -/
def compactMembers : List (String × Json) → List Char
  | [] => ['}']
  | (key, value) :: rest =>
    ',' :: (quoted key ++ ':' :: (compactChars value ++ compactMembers rest))

end

/-- A line feed and the indentation of a level. -/
def newline (level : Nat) : List Char := '\n' :: List.replicate (2 * level) ' '

mutual

/-- The form with a line per element or member, at an indentation level. -/
def prettyChars (level : Nat) : Json → List Char
  | null => ['n', 'u', 'l', 'l']
  | bool true => ['t', 'r', 'u', 'e']
  | bool false => ['f', 'a', 'l', 's', 'e']
  | number value => numberChars value
  | text value => quoted value
  | array [] => ['[', ']']
  | array (first :: rest) =>
    '[' :: (newline (level + 1) ++ prettyChars (level + 1) first ++ prettyElements level rest)
  | object [] => ['{', '}']
  | object ((key, value) :: rest) =>
    '{' :: (newline (level + 1) ++ quoted key ++ ':' :: ' '
      :: (prettyChars (level + 1) value ++ prettyMembers level rest))

/-- The elements after the first, and the closing bracket of a level. -/
def prettyElements (level : Nat) : List Json → List Char
  | [] => newline level ++ [']']
  | element :: rest =>
    ',' :: (newline (level + 1) ++ prettyChars (level + 1) element ++ prettyElements level rest)

/-- The members after the first, and the closing brace of a level. -/
def prettyMembers (level : Nat) : List (String × Json) → List Char
  | [] => newline level ++ ['}']
  | (key, value) :: rest =>
    ',' :: (newline (level + 1) ++ quoted key ++ ':' :: ' '
      :: (prettyChars (level + 1) value ++ prettyMembers level rest))

end

/-- The canonical form: members ascending, no white space. -/
def canonical (value : Json) : String := String.ofList (compactChars value.sorted)

/-- The pretty form: members ascending, two spaces per level, a final line feed. -/
def pretty (value : Json) : String := String.ofList (prettyChars 0 value.sorted ++ ['\n'])

end Json

end Blockwright
