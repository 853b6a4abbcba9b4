import Blockwright.Json.Value
import Blockwright.Bytes

/-!
# Tokens of a JSON text

The first stage of reading: a text is cut into punctuation, words, numbers and quoted texts.
A token that cannot be completed ends the list. Some faults concern only a reader that needs the
value: a number beyond the range of doubles or an unpaired surrogate passes where a value is
skipped.
-/

namespace Blockwright

namespace Json

/-- Why a text is not the expected JSON. -/
inductive Fault where
  /-- The text breaks a rule of the format. -/
  | form
  /-- A well-formed value is not of the expected kind. -/
  | kind
  | truncated
deriving DecidableEq, Repr

/-- A token. -/
inductive Token where
  | openBrace
  | closeBrace
  | openBracket
  | closeBracket
  | comma
  | colon
  | null
  | bool (value : Bool)
  /-- A number, or none beyond the range of doubles. -/
  | number (value : Option Number)
  /-- A quoted text, or none with an unpaired surrogate. -/
  | text (value : Option String)
  /-- A quoted text that is not completed, with the faults for a reader that needs its value and
  for one that skips it. -/
  | brokenText (needed skipped : Fault)
  /-- The empty value, not completed. -/
  | brokenNull (fault : Fault)
  /-- Anything else that is not completed, with the faults for a reader that needs its value and
  for one that skips it. -/
  | broken (needed skipped : Fault)

namespace Token

/-- Whether a character may stand between tokens. -/
def isSpace (c : Char) : Bool := c == ' ' || c == '\n' || c == '\t' || c == '\r'

/-- Largest significand that is kept exactly. -/
def significandLimit : Nat := UInt64.size - 1

/-- Appends digits to a significand until one does not fit; gives the digits left over. -/
def accumulate (significand : Nat) : List Char → Nat × List Char
  | [] => (significand, [])
  | digit :: rest =>
    let next := significand * 10 + (digit.toNat - 48)
    if next ≤ significandLimit then accumulate next rest else (significand, digit :: rest)

/-- A significand times a power of ten, in double arithmetic: one multiplication or division by
an exact power, or several divisions below the range of powers. None is the result beyond the
range of doubles. The significand vanishes after two extra divisions. -/
def scale : (fuel : Nat) → Float → Int → Option Float
  | 0, value, _ => some value
  | fuel + 1, value, exponent =>
    if exponent.natAbs ≤ 308 then
      let power := Float.ofScientific 1 false exponent.natAbs
      if 0 ≤ exponent then
        let product := value * power
        if product.isInf then none else some product
      else some (value / power)
    else if value == 0.0 then some value
    else if 0 ≤ exponent then none
    else scale fuel (value / Float.ofScientific 1 false 308) (exponent + 308)

/-- The double with the given sign, significand and power of ten. -/
def realNumber (negative : Bool) (significand : Nat) (exponent : Int) : Option Number :=
  (scale 4 (UInt64.ofNat significand).toFloat exponent).map fun value =>
    .real (if negative then -value else value)

/-- The value of a number from its digits. Whole numbers that fit 64 bits stay exact. -/
def numberValue (negative : Bool) (whole : List Char) (fraction : List Char)
    (power : Option Int) : Option Number :=
  let (significand, excess) := accumulate 0 whole
  if fraction.isEmpty && power.isNone && excess.isEmpty then
    if !negative then some (.integer significand)
    else if significand == 0 || 0x8000000000000000 < significand then
      some (.real (-(UInt64.ofNat significand).toFloat))
    else some (.integer (-significand))
  else
    let (all, ignored) := accumulate significand fraction
    let places := Int.ofNat excess.length - Int.ofNat (fraction.length - ignored.length)
    realNumber negative all (places + power.getD 0)

/-- The token of a number that breaks off before the given rest. -/
def unfinishedNumber (rest : List Char) : Token × List Char :=
  let needed := if rest.isEmpty then Fault.truncated else .form
  (.broken needed .form, rest)

/-- The number with the given decimal digits. -/
def digitsValue (digits : List Char) : Nat :=
  digits.foldl (fun value digit => value * 10 + (digit.toNat - 48)) 0

/-- Whether the power of ten in front of a rest is negative. -/
def hasMinus (rest : List Char) : Bool := rest.head? == some '-'

/-- A rest without the sign in front of it. -/
def dropSign (rest : List Char) : List Char :=
  if hasMinus rest || rest.head? == some '+' then rest.drop 1 else rest

/-- Scans the power of ten of a number, behind its digits. -/
def scanPower (negative : Bool) (whole fraction : List Char) : List Char → Token × List Char
  | [] => (.number (numberValue negative whole fraction none), [])
  | c :: after =>
    if c == 'e' || c == 'E' then
      let digits := (dropSign after).takeWhile Char.isDigit
      let behind := (dropSign after).dropWhile Char.isDigit
      if digits.isEmpty then unfinishedNumber behind
      else
        let size := Int.ofNat (digitsValue digits)
        let power := if hasMinus after then -size else size
        (.number (numberValue negative whole fraction (some power)), behind)
    else (.number (numberValue negative whole fraction none), c :: after)

/-- Scans the fraction and the power of ten of a number, behind its whole digits. -/
def scanFraction (negative : Bool) (whole : List Char) : List Char → Token × List Char
  | '.' :: after =>
    let fraction := after.takeWhile Char.isDigit
    let behind := after.dropWhile Char.isDigit
    if fraction.isEmpty then unfinishedNumber behind
    else scanPower negative whole fraction behind
  | rest => scanPower negative whole [] rest

/-- Scans a number behind its first digit. A leading zero stands alone. -/
def scanNumber (negative : Bool) (first : Char) (cs : List Char) : Token × List Char :=
  let digits := cs.takeWhile Char.isDigit
  let rest := cs.dropWhile Char.isDigit
  if first == '0' && !digits.isEmpty then (.broken .form .form, rest)
  else scanFraction negative (first :: digits) rest

/-- Scans a number behind its minus sign. -/
def scanNegative : List Char → Token × List Char
  | [] => unfinishedNumber []
  | c :: rest => if c.isDigit then scanNumber true c rest else unfinishedNumber (c :: rest)

/-- The token of a word that is not completed. -/
def unfinishedWord (fault : Fault) : Token → Token
  | .null => .brokenNull fault
  | _ => .broken fault fault

/-- Scans the rest of a word whose first letter has been read. -/
def scanWord (token : Token) : (expected : List Char) → List Char → Token × List Char
  | [], rest => (token, rest)
  | _ :: _, [] => (unfinishedWord .truncated token, [])
  | letter :: expected, c :: rest =>
    if c == letter then scanWord token expected rest else (unfinishedWord .form token, rest)

/-- State of scanning a quoted text. -/
structure TextState where
  /-- Characters read so far, latest first. -/
  read : List Char
  /-- A leading surrogate whose partner must follow at once. -/
  leading : Option Nat
  /-- Whether every surrogate so far has its partner. -/
  paired : Bool

namespace TextState

/-- The state before the first character. -/
def start : TextState := { read := [], leading := none, paired := true }

/-- The state after a character that stands for itself. -/
def push (state : TextState) (c : Char) : TextState :=
  { read := c :: state.read, leading := none, paired := state.paired && state.leading.isNone }

/-- The state after an escaped UTF-16 unit. -/
def pushUnit (state : TextState) (unit : Nat) : TextState :=
  match state.leading with
  | some first =>
    if 0xdc00 ≤ unit && unit ≤ 0xdfff then
      let code := 0x10000 + (first - 0xd800) * 0x400 + (unit - 0xdc00)
      { read := Char.ofNat code :: state.read, leading := none, paired := state.paired }
    else { state with leading := none, paired := false }
  | none =>
    if 0xd800 ≤ unit && unit ≤ 0xdbff then { state with leading := some unit }
    else if 0xdc00 ≤ unit && unit ≤ 0xdfff then { state with paired := false }
    else { state with read := Char.ofNat unit :: state.read }

/-- The text read, if every surrogate has its partner. -/
def finish (state : TextState) : Option String :=
  if state.paired && state.leading.isNone then some (String.ofList state.read.reverse) else none

/-- The token of a text that breaks off. An unpaired surrogate before the break comes first for
a reader that needs the text. -/
def broken (state : TextState) (follows : Bool) (fault : Fault) : Token :=
  let needed := if state.paired && (state.leading.isNone || !follows) then fault else .form
  .brokenText needed fault

end TextState

/-- The character that a one-letter escape stands for. -/
def unescape? : Char → Option Char
  | '"' => some '"'
  | '\\' => some '\\'
  | '/' => some '/'
  | 'b' => some '\x08'
  | 'f' => some '\x0c'
  | 'n' => some '\n'
  | 'r' => some '\r'
  | 't' => some '\t'
  | _ => none

/-- The UTF-16 unit with the given hexadecimal digits. -/
def unit? (first second third fourth : Char) : Option Nat := do
  let first ← Bytes.hexValue? first
  let second ← Bytes.hexValue? second
  let third ← Bytes.hexValue? third
  let fourth ← Bytes.hexValue? fourth
  return ((first * 16 + second) * 16 + third) * 16 + fourth

/-- Whether fewer than four bytes are left. -/
def endsWithinUnit (rest : List Char) : Bool :=
  (String.ofList (rest.take 4)).utf8ByteSize < 4

/-- Scans a quoted text behind its opening quote. -/
def scanText (state : TextState) : List Char → Token × List Char
  | [] => (state.broken false .truncated, [])
  | '"' :: rest => (.text state.finish, rest)
  | ['\\'] => (state.broken false .truncated, [])
  | '\\' :: 'u' :: first :: second :: third :: fourth :: rest =>
    match unit? first second third fourth with
    | some unit => scanText (state.pushUnit unit) rest
    | none => (state.broken false .form, rest)
  | '\\' :: 'u' :: rest =>
    (state.broken false (if endsWithinUnit rest then .truncated else .form), [])
  | '\\' :: letter :: rest =>
    match unescape? letter with
    | some c => scanText (state.push c) rest
    | none => (state.broken true .form, rest)
  | c :: rest =>
    if c.toNat < 0x20 then (state.broken true .form, rest) else scanText (state.push c) rest

/-- Scans one token that starts with the given character. -/
def scan (c : Char) (rest : List Char) : Token × List Char :=
  match c with
  | '\x7b' => (.openBrace, rest)
  | '\x7d' => (.closeBrace, rest)
  | '[' => (.openBracket, rest)
  | ']' => (.closeBracket, rest)
  | ',' => (.comma, rest)
  | ':' => (.colon, rest)
  | '"' => scanText .start rest
  | '-' => scanNegative rest
  | 'n' => scanWord .null ['u', 'l', 'l'] rest
  | 't' => scanWord (.bool true) ['r', 'u', 'e'] rest
  | 'f' => scanWord (.bool false) ['a', 'l', 's', 'e'] rest
  | c => if c.isDigit then scanNumber false c rest else (.broken .form .form, rest)

/-- Whether nothing can follow a token. -/
def isBroken : Token → Bool
  | .brokenText _ _ => true
  | .brokenNull _ => true
  | .broken _ _ => true
  | _ => false

theorem length_dropWhile_le (test : Char → Bool) (cs : List Char) :
    (cs.dropWhile test).length ≤ cs.length :=
  (List.dropWhile_suffix test).length_le

theorem length_dropSign_le (rest : List Char) : (dropSign rest).length ≤ rest.length := by
  unfold dropSign
  split <;> simp

theorem length_scanPower (negative : Bool) (whole fraction rest : List Char) :
    (scanPower negative whole fraction rest).2.length ≤ rest.length := by
  unfold scanPower
  split
  · exact Nat.le_refl _
  · rename_i c after
    have signless := length_dropSign_le after
    have behind := length_dropWhile_le Char.isDigit (dropSign after)
    dsimp only
    split
    · split <;> simp only [unfinishedNumber, List.length_cons] <;> omega
    · exact Nat.le_refl _

theorem length_scanFraction (negative : Bool) (whole rest : List Char) :
    (scanFraction negative whole rest).2.length ≤ rest.length := by
  unfold scanFraction
  split
  · rename_i after
    have behind := length_dropWhile_le Char.isDigit after
    dsimp only
    split
    · simp only [unfinishedNumber, List.length_cons]
      omega
    · have power := length_scanPower negative whole (after.takeWhile Char.isDigit)
        (after.dropWhile Char.isDigit)
      simp only [List.length_cons]
      omega
  · exact length_scanPower ..

theorem length_scanNumber (negative : Bool) (first : Char) (cs : List Char) :
    (scanNumber negative first cs).2.length ≤ cs.length := by
  have rest := length_dropWhile_le Char.isDigit cs
  unfold scanNumber
  dsimp only
  split
  · exact rest
  · exact Nat.le_trans (length_scanFraction ..) rest

theorem length_scanNegative (cs : List Char) : (scanNegative cs).2.length ≤ cs.length := by
  unfold scanNegative
  split
  · exact Nat.le_refl _
  · split
    · exact Nat.le_trans (length_scanNumber ..) (Nat.le_succ _)
    · exact Nat.le_refl _

theorem length_scanWord (token : Token) (expected cs : List Char) :
    (scanWord token expected cs).2.length ≤ cs.length := by
  fun_induction scanWord token expected cs <;> simp_all
  omega

theorem length_scanText (state : TextState) (cs : List Char) :
    (scanText state cs).2.length ≤ cs.length := by
  fun_induction scanText state cs <;> simp_all <;> omega

/-- Scanning a token consumes its first character. -/
theorem length_scan (c : Char) (rest : List Char) : (scan c rest).2.length ≤ rest.length := by
  unfold scan
  split <;> first
    | exact Nat.le_refl _
    | exact length_scanText ..
    | exact length_scanNegative ..
    | exact length_scanWord ..
    | (split
       · exact length_scanNumber ..
       · exact Nat.le_refl _)

/-- The tokens of a text, up to the first that is broken. -/
def list : List Char → List Token
  | [] => []
  | c :: rest =>
    if isSpace c then list rest
    else
      let scanned := scan c rest
      scanned.1 :: if scanned.1.isBroken then [] else list scanned.2
termination_by cs => cs.length
decreasing_by
  · simp
  · have := length_scan c rest
    simp only [List.length_cons]
    omega

end Token

end Json

end Blockwright
