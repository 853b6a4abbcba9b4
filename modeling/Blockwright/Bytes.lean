/-!
# Byte strings

Numbers in big-endian and little-endian order, and the hexadecimal form of a byte string.
File contents are `ByteArray`s; the binary formats read and write them as `List UInt8`.
-/

namespace Blockwright

namespace Bytes

/-- The bytes of an array as a list, in order. -/
def list (bytes : ByteArray) : List UInt8 := bytes.data.toList

/-- The array holding the given bytes, in order. -/
def ofList (bytes : List UInt8) : ByteArray := ⟨bytes.toArray⟩

@[simp]
theorem list_ofList (bytes : List UInt8) : list (ofList bytes) = bytes := by
  simp [list, ofList]

@[simp]
theorem ofList_list (bytes : ByteArray) : ofList (list bytes) = bytes := by
  simp [list, ofList]

@[simp]
theorem size_ofList (bytes : List UInt8) : (ofList bytes).size = bytes.length := by
  simp [ofList, ByteArray.size]

@[simp]
theorem length_list (bytes : ByteArray) : (list bytes).length = bytes.size :=
  Array.length_toList

theorem push_ofList (front : List UInt8) (byte : UInt8) :
    (ofList front).push byte = ofList (front ++ [byte]) :=
  congrArg ByteArray.mk (List.push_toArray front byte)

/-- Byte at a position, zero past the end. -/
def at0 (bytes : ByteArray) (position : Nat) : UInt8 :=
  if h : position < bytes.size then bytes[position] else 0

/-- The four bytes of a word, most significant first. -/
def bigEndian (word : UInt32) : List UInt8 :=
  [(word >>> 24).toUInt8, (word >>> 16).toUInt8, (word >>> 8).toUInt8, word.toUInt8]

/-- The word with the given bytes, most significant first. -/
def ofBigEndian (first second third fourth : UInt8) : UInt32 :=
  first.toUInt32 <<< 24 ||| second.toUInt32 <<< 16 ||| third.toUInt32 <<< 8 ||| fourth.toUInt32

/-- The word that a byte string starts with, most significant byte first. -/
def wordAt : List UInt8 → UInt32
  | first :: second :: third :: fourth :: _ => ofBigEndian first second third fourth
  | _ => 0

@[simp]
theorem length_bigEndian (word : UInt32) : (bigEndian word).length = 4 := rfl

/-- A word is read back from its bytes, whatever follows them. -/
@[simp]
theorem wordAt_bigEndian (word : UInt32) (rest : List UInt8) :
    wordAt (bigEndian word ++ rest) = word := by
  apply UInt32.toNat_inj.1
  have bound := word.toNat_lt
  simp only [bigEndian, List.cons_append, List.nil_append, wordAt, ofBigEndian, UInt32.toNat_or,
    UInt32.toNat_shiftLeft, UInt8.toNat_toUInt32, UInt32.toNat_toUInt8, UInt32.toNat_shiftRight]
  generalize word.toNat = number at bound
  apply Nat.eq_of_testBit_eq
  intro i
  have high : 32 ≤ i → number.testBit i = false := fun above =>
    Nat.testBit_lt_two_pow (Nat.lt_of_lt_of_le bound (Nat.pow_le_pow_right (by omega) above))
  simp only [Nat.testBit_or, Nat.testBit_mod_two_pow, Nat.testBit_shiftLeft,
    Nat.testBit_shiftRight]
  simp
  grind

/-- A word is written as the bytes that it was read from. -/
theorem bigEndian_wordAt {bytes : List UInt8} (long : 4 ≤ bytes.length) :
    bigEndian (wordAt bytes) = bytes.take 4 := by
  obtain ⟨first, second, third, fourth, rest, rfl⟩ :
      ∃ first second third fourth rest, bytes = first :: second :: third :: fourth :: rest := by
    rcases bytes with _ | ⟨first, _ | ⟨second, _ | ⟨third, _ | ⟨fourth, rest⟩⟩⟩⟩
    all_goals simp only [List.length_cons, List.length_nil] at long
    · omega
    · omega
    · omega
    · omega
    · exact ⟨first, second, third, fourth, rest, rfl⟩
  have low : ∀ byte : UInt8, ∀ i, 8 ≤ i → byte.toNat.testBit i = false := fun byte i above =>
    Nat.testBit_lt_two_pow
      (Nat.lt_of_lt_of_le byte.toNat_lt (Nat.pow_le_pow_right (by omega) above))
  simp only [wordAt, bigEndian, List.take_succ_cons, List.take_zero, List.cons.injEq, and_true]
  refine ⟨?_, ?_, ?_, ?_⟩
  all_goals
    apply UInt8.toNat_inj.1
    apply Nat.eq_of_testBit_eq
    intro i
    simp only [ofBigEndian, UInt32.toNat_or, UInt32.toNat_shiftLeft, UInt8.toNat_toUInt32,
      UInt32.toNat_toUInt8, UInt32.toNat_shiftRight, Nat.testBit_or, Nat.testBit_mod_two_pow,
      Nat.testBit_shiftLeft, Nat.testBit_shiftRight]
    simp
    grind

/-- The four bytes of a word, least significant first. -/
def littleEndian (word : UInt32) : List UInt8 :=
  [word.toUInt8, (word >>> 8).toUInt8, (word >>> 16).toUInt8, (word >>> 24).toUInt8]

/-- The low `count` bytes of a number, least significant first. -/
def littleEndianNat : (count : Nat) → Nat → List UInt8
  | 0, _ => []
  | count + 1, number => UInt8.ofNat number :: littleEndianNat count (number / 256)

/-- The number whose bytes are given least significant first. -/
def ofLittleEndian : List UInt8 → Nat
  | [] => 0
  | byte :: rest => byte.toNat + 256 * ofLittleEndian rest

@[simp]
theorem length_littleEndianNat (count number : Nat) :
    (littleEndianNat count number).length = count := by
  induction count generalizing number with
  | zero => rfl
  | succ count ih => simp [littleEndianNat, ih]

/-- The lower-case hexadecimal digit of a number below sixteen. -/
def hexDigit (value : Nat) : Char :=
  if value < 10 then Char.ofNat (48 + value) else Char.ofNat (87 + value)

/-- The two hexadecimal digits of a byte. -/
def hexByte (byte : UInt8) : List Char :=
  [hexDigit (byte.toNat / 16), hexDigit (byte.toNat % 16)]

/-- The lower-case hexadecimal text of a byte string. -/
def hex (bytes : List UInt8) : String :=
  String.ofList (bytes.flatMap hexByte)

/-- The value of a hexadecimal digit of either case. -/
def hexValue? (digit : Char) : Option Nat :=
  if '0' ≤ digit ∧ digit ≤ '9' then some (digit.toNat - 48)
  else if 'a' ≤ digit ∧ digit ≤ 'f' then some (digit.toNat - 87)
  else if 'A' ≤ digit ∧ digit ≤ 'F' then some (digit.toNat - 55)
  else none

/-- The byte string that a hexadecimal text stands for. -/
def ofHex? : List Char → Option (List UInt8)
  | [] => some []
  | [_] => none
  | high :: low :: rest => do
    let high ← hexValue? high
    let low ← hexValue? low
    let others ← ofHex? rest
    return UInt8.ofNat (high * 16 + low) :: others

/-- The value of a digit is read from it. -/
theorem hexValue?_hexDigit {value : Nat} (small : value < 16) :
    hexValue? (hexDigit value) = some value := by
  have each : ∀ value < 16, hexValue? (hexDigit value) = some value := by decide
  exact each value small

/-- A hexadecimal digit is no control character. -/
theorem le_toNat_hexDigit {value : Nat} (small : value < 16) : 0x30 ≤ (hexDigit value).toNat := by
  have each : ∀ value < 16, 0x30 ≤ (hexDigit value).toNat := by decide
  exact each value small

/-- A byte string is read back from its hexadecimal digits. -/
theorem ofHex?_flatMap_hexByte (bytes : List UInt8) :
    ofHex? (bytes.flatMap hexByte) = some bytes := by
  induction bytes with
  | nil => rfl
  | cons byte rest ih =>
    have high : hexValue? (hexDigit (byte.toNat / 16)) = some (byte.toNat / 16) :=
      hexValue?_hexDigit (by have := byte.toNat_lt; omega)
    have low : hexValue? (hexDigit (byte.toNat % 16)) = some (byte.toNat % 16) :=
      hexValue?_hexDigit (Nat.mod_lt _ (by decide))
    have whole : byte.toNat / 16 * 16 + byte.toNat % 16 = byte.toNat := Nat.div_add_mod' _ _
    rw [List.flatMap_cons, hexByte, List.cons_append, List.cons_append, List.nil_append, ofHex?]
    simp only [high, low, ih, whole, Option.bind_eq_bind, Option.bind_some, pure, UInt8.ofNat_toNat]

theorem hex_injective : Function.Injective hex := by
  intro first second same
  have read : ∀ bytes, ofHex? (hex bytes).toList = some bytes := fun bytes => by
    rw [hex, String.toList_ofList, ofHex?_flatMap_hexByte]
  exact Option.some.inj ((read first).symm.trans (same ▸ read second))

end Bytes

end Blockwright
