/-!
# Numbers in texts

Decimal numbers of 32 bits, as operators write them.
-/

namespace Blockwright

namespace Text

/-- Why a text is not a number of 32 bits. -/
inductive NumberFault where
  | empty
  | badDigit
  | tooLarge
deriving DecidableEq, Repr

def NumberFault.message : NumberFault → String
  | .empty => "cannot parse integer from empty string"
  | .badDigit => "invalid digit found in string"
  | .tooLarge => "number too large to fit in target type"

/-- Reads the digits behind those with the given value. The first fault counts. -/
def readDigits (value : Nat) : List Char → Except NumberFault Nat
  | [] => .ok value
  | c :: rest =>
    if !c.isDigit then .error .badDigit
    else
      let next := value * 10 + (c.toNat - 48)
      if UInt32.size ≤ next then .error .tooLarge else readDigits next rest

/-- Reads a number of 32 bits, which may have a plus sign. -/
def readWord (source : String) : Except NumberFault UInt32 :=
  match source.toList with
  | [] => .error .empty
  | ['+'] => .error .badDigit
  | '+' :: digits => (readDigits 0 digits).map UInt32.ofNat
  | digits => (readDigits 0 digits).map UInt32.ofNat

end Text

end Blockwright
