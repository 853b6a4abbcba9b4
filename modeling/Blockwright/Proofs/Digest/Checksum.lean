import Mathlib
import Blockwright.Digest.Checksum

/-!
# Damage that checksums show

A step of the cyclic redundancy check can be taken back: the highest bit of the register tells which
bit has left it. So two registers that differ stay different whatever bytes follow, and byte strings
that differ in a single byte have different checksums.
-/

namespace Blockwright

namespace Crc32

/-! ## Taking steps back -/

theorem and_one_eq_zero_iff (register : UInt32) :
    register &&& 1 = 0 ↔ register.toNat.testBit 0 = false := by
  rw [← UInt32.toNat_inj, UInt32.toNat_and, Nat.testBit_zero]
  simp [Nat.and_one_is_mod]

theorem toNat_shift (register : UInt32) :
    (shift register).toNat =
      if register.toNat.testBit 0 then register.toNat / 2 ^^^ polynomial.toNat
      else register.toNat / 2 := by
  rw [shift]
  by_cases even : register &&& 1 = 0
  · rw [if_pos even, (and_one_eq_zero_iff register).1 even, if_neg (by decide)]
    simp [Nat.shiftRight_eq_div_pow]
  · have odd : register.toNat.testBit 0 = true := by
      rwa [and_one_eq_zero_iff, Bool.not_eq_false] at even
    rw [if_neg even, odd, if_pos rfl]
    simp [Nat.shiftRight_eq_div_pow]

theorem testBit_shift (register : UInt32) :
    (shift register).toNat.testBit 31 = register.toNat.testBit 0 := by
  have bound := register.toNat_lt
  have half : (register.toNat / 2).testBit 31 = false :=
    Nat.testBit_lt_two_pow (by omega)
  have top : polynomial.toNat.testBit 31 = true := by decide
  rw [toNat_shift]
  cases register.toNat.testBit 0 with
  | false => exact half
  | true => rw [if_pos rfl, Nat.testBit_xor, half, top, Bool.false_xor]

theorem shift_injective : Function.Injective shift := by
  intro first second same
  have left : first.toNat.testBit 0 = second.toNat.testBit 0 := by
    rw [← testBit_shift, ← testBit_shift, same]
  have others : first.toNat / 2 = second.toNat / 2 := by
    have shifted := congrArg UInt32.toNat same
    rw [toNat_shift, toNat_shift, left] at shifted
    split at shifted
    · exact Nat.xor_left_injective shifted
    · exact shifted
  rw [Nat.testBit_zero, Nat.testBit_zero, decide_eq_decide] at left
  apply UInt32.toNat_inj.1
  omega

theorem shifts_injective (count : Nat) : Function.Injective (shifts count) := by
  induction count with
  | zero => exact Function.injective_id
  | succ count ih => exact ih.comp shift_injective

theorem push_eq_iff {first second : UInt32} {byte other : UInt8} :
    push first byte = push second other ↔
      first ^^^ byte.toUInt32 = second ^^^ other.toUInt32 :=
  (shifts_injective 8).eq_iff

/-! ## Byte strings -/

/-- Registers that differ stay different, whatever bytes follow. -/
theorem foldl_push_injective (bytes : List UInt8) :
    Function.Injective fun register => bytes.foldl push register := by
  induction bytes with
  | nil => exact Function.injective_id
  | cons byte bytes ih =>
    intro first second same
    exact (UInt32.xor_left_inj _).1 (push_eq_iff.1 (ih same))

theorem toUInt32_injective : Function.Injective UInt8.toUInt32 := by
  intro byte other same
  have numbers := congrArg UInt32.toNat same
  rw [UInt8.toNat_toUInt32, UInt8.toNat_toUInt32] at numbers
  exact UInt8.toNat_inj.1 numbers

theorem ofBytes_append_cons_inj {front rest : List UInt8} {byte other : UInt8} :
    ofBytes (front ++ byte :: rest) = ofBytes (front ++ other :: rest) ↔ byte = other := by
  constructor
  · intro same
    rw [ofBytes, ofBytes, UInt32.not_inj, List.foldl_append, List.foldl_append] at same
    have registers := push_eq_iff.1 (foldl_push_injective rest same)
    exact toUInt32_injective ((UInt32.xor_right_inj _).1 registers)
  · rintro rfl
    rfl

/-- A byte string with one byte changed has another checksum. -/
theorem ofBytes_set_ne {bytes : List UInt8} {place : Nat} (inside : place < bytes.length)
    {byte : UInt8} (changed : bytes[place] ≠ byte) :
    ofBytes (bytes.set place byte) ≠ ofBytes bytes := by
  have parts : bytes = bytes.take place ++ bytes[place] :: bytes.drop (place + 1) := by simp
  rw [List.set_eq_take_append_cons_drop, if_pos inside]
  nth_rewrite 3 [parts]
  exact fun same => changed (ofBytes_append_cons_inj.1 same).symm

/-- The checksum of the nine digits, by which implementations are compared. -/
example : ofBytes [0x31, 0x32, 0x33, 0x34, 0x35, 0x36, 0x37, 0x38, 0x39] = 0xcbf43926 := by
  decide +kernel

end Crc32

end Blockwright
