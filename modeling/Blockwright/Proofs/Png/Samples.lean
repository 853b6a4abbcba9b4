import Mathlib
import Blockwright.Png.Pixels

/-!
# Samples of rows

The bits of a row, highest first in each byte, are those of its samples, highest first in each
sample. So a row that samples were packed into gives them back, whatever bits follow the last one.
-/

namespace Blockwright

/-- The last bits of a number, highest first. -/
def highFirst : (count number : Nat) → List Bool
  | 0, _ => []
  | count + 1, number => number.testBit count :: highFirst count number

/-! ## Bits of numbers -/

@[simp]
theorem length_highFirst (count number : Nat) : (highFirst count number).length = count := by
  induction count with
  | zero => rfl
  | succ count ih => rw [highFirst, List.length_cons, ih]

theorem testBit_eq_of_highFirst {count first second : Nat}
    (same : highFirst count first = highFirst count second) {place : Nat} (low : place < count) :
    first.testBit place = second.testBit place := by
  induction count with
  | zero => omega
  | succ count ih =>
    obtain ⟨head, tail⟩ := List.cons.inj same
    rcases Nat.lt_succ_iff_lt_or_eq.1 low with lower | rfl
    · exact ih tail lower
    · exact head

theorem eq_of_highFirst {count first second : Nat} (firstSmall : first < 2 ^ count)
    (secondSmall : second < 2 ^ count) (same : highFirst count first = highFirst count second) :
    first = second := by
  apply Nat.eq_of_testBit_eq
  intro place
  by_cases low : place < count
  · exact testBit_eq_of_highFirst same low
  · have power : 2 ^ count ≤ 2 ^ place := Nat.pow_le_pow_right (by decide) (by omega)
    rw [Nat.testBit_lt_two_pow (firstSmall.trans_le power),
      Nat.testBit_lt_two_pow (secondSmall.trans_le power)]

theorem prefix_of_flatMap_highFirst {count : Nat} (positive : 0 < count)
    {numbers others : List Nat} (small : ∀ number ∈ numbers, number < 2 ^ count)
    (otherSmall : ∀ number ∈ others, number < 2 ^ count) {rest : List Bool}
    (bits : others.flatMap (highFirst count) = numbers.flatMap (highFirst count) ++ rest) :
    numbers <+: others := by
  induction numbers generalizing others with
  | nil => exact List.nil_prefix
  | cons number numbers ih =>
    rw [List.flatMap_cons, List.append_assoc] at bits
    cases others with
    | nil =>
      have lengths := congrArg List.length bits
      simp only [List.flatMap_nil, List.length_nil, List.length_append, length_highFirst] at lengths
      omega
    | cons other others =>
      rw [List.forall_mem_cons] at small otherSmall
      rw [List.flatMap_cons] at bits
      obtain ⟨head, tail⟩ := List.append_inj bits (by simp)
      rw [eq_of_highFirst otherSmall.1 small.1 head]
      exact (List.prefix_cons_inj number).2 (ih small.2 otherSmall.2 tail)

theorem highFirst_add {low : Nat} (size : Nat) (small : low < 2 ^ size) (count high : Nat) :
    highFirst (count + size) (2 ^ size * high + low) =
      highFirst count high ++ highFirst size low := by
  induction count with
  | zero =>
    have lower (taken : Nat) (few : taken ≤ size) :
        highFirst taken (2 ^ size * high + low) = highFirst taken low := by
      induction taken with
      | zero => rfl
      | succ taken ih =>
        rw [highFirst, highFirst, ih (by omega), Nat.testBit_two_pow_mul_add _ small,
          if_pos (by omega)]
    rw [Nat.zero_add, lower size le_rfl, highFirst, List.nil_append]
  | succ count ih =>
    rw [Nat.succ_add, highFirst, highFirst, ih, Nat.testBit_two_pow_mul_add _ small,
      if_neg (by omega), Nat.add_sub_cancel, List.cons_append]

/-! ## Rows -/

/-- The bits of a row, highest first in each byte. -/
def bitsOfRow (row : List UInt8) : List Bool := row.flatMap fun byte => highFirst 8 byte.toNat

@[simp]
theorem length_bitsOfRow (row : List UInt8) : (bitsOfRow row).length = 8 * row.length := by
  induction row with
  | nil => rfl
  | cons byte row ih =>
    rw [bitsOfRow, List.flatMap_cons, List.length_append, length_highFirst, ← bitsOfRow, ih,
      List.length_cons]
    omega

namespace Depth

/-- Whether samples stand in a row one behind the other, highest bits first. Any bits may follow. -/
def Packs (depth : Depth) (samples : List Nat) (row : List UInt8) : Prop :=
  ∃ padding, bitsOfRow row = samples.flatMap (highFirst depth.bits) ++ padding

theorem bits_pos (depth : Depth) : 0 < depth.bits := by cases depth <;> decide

theorem flatMap_samplesOfByte {depth : Depth} (narrow : depth.bits < 8) (byte : UInt8) :
    (samplesOfByte depth.bits byte).flatMap (highFirst depth.bits) = highFirst 8 byte.toNat := by
  cases depth with
  | one | two | four =>
    rw [samplesOfByte, List.flatMap_map]
    simp only [bits, highFirst, Nat.one_shiftLeft, Nat.testBit_mod_two_pow,
      Nat.testBit_shiftRight]
    simp [List.range_succ]
  | eight | sixteen => simp [bits] at narrow

theorem flatMap_wideSamples {row : List UInt8} (even : 2 ∣ row.length) :
    (wideSamples row).flatMap (highFirst 16) = bitsOfRow row := by
  fun_induction wideSamples row with
  | case1 high low rest ih =>
    have evenRest : 2 ∣ rest.length := by
      simp only [List.length_cons] at even
      omega
    have parts : highFirst 16 (high.toNat * 256 + low.toNat) =
        highFirst 8 high.toNat ++ highFirst 8 low.toNat := by
      rw [Nat.mul_comm]
      exact highFirst_add 8 low.toNat_lt 8 high.toNat
    rw [List.flatMap_cons, parts, ih evenRest, List.append_assoc]
    rfl
  | case2 row other =>
    rcases row with _ | ⟨high, _ | ⟨low, rest⟩⟩
    · rfl
    · simp at even
    · exact absurd rfl (other high low rest)

theorem flatMap_samples {depth : Depth} {row : List UInt8} (whole : depth.bits ∣ 8 * row.length) :
    (depth.samples row).flatMap (highFirst depth.bits) = bitsOfRow row := by
  cases depth with
  | one | two | four =>
    simp only [samples, List.flatMap_assoc, bitsOfRow]
    exact congrArg row.flatMap (funext (flatMap_samplesOfByte (by decide)))
  | eight => rw [samples, List.flatMap_map]; rfl
  | sixteen =>
    refine flatMap_wideSamples ?_
    simp only [bits] at whole
    omega

theorem wideSamples_lt {row : List UInt8} : ∀ sample ∈ wideSamples row, sample < 2 ^ 16 := by
  fun_induction wideSamples row with
  | case1 high low rest ih =>
    have highBound := high.toNat_lt
    have lowBound := low.toNat_lt
    exact List.forall_mem_cons.2 ⟨by omega, ih⟩
  | case2 => simp

theorem samplesOfByte_lt (bits : Nat) (byte : UInt8) :
    ∀ sample ∈ samplesOfByte bits byte, sample < 2 ^ bits := by
  intro sample isSample
  obtain ⟨place, -, rfl⟩ := List.mem_map.1 isSample
  rw [Nat.one_shiftLeft]
  exact Nat.mod_lt _ (Nat.two_pow_pos bits)

/-- Samples have as many bits as their depth says. -/
theorem samples_lt {depth : Depth} {row : List UInt8} :
    ∀ sample ∈ depth.samples row, sample < 2 ^ depth.bits := by
  cases depth with
  | one | two | four =>
    intro sample isSample
    obtain ⟨byte, -, isSample⟩ := List.mem_flatMap.1 isSample
    exact samplesOfByte_lt _ byte sample isSample
  | eight =>
    intro sample isSample
    obtain ⟨byte, -, rfl⟩ := List.mem_map.1 isSample
    exact byte.toNat_lt
  | sixteen => exact wideSamples_lt

/-- Samples that were packed into a row are read from it. -/
theorem Packs.take_samples {depth : Depth} {packed : List Nat} {row : List UInt8}
    (packs : depth.Packs packed row) (small : ∀ sample ∈ packed, sample < 2 ^ depth.bits)
    (whole : depth.bits ∣ 8 * row.length) : packed <+: depth.samples row := by
  obtain ⟨padding, bits⟩ := packs
  rw [← flatMap_samples whole] at bits
  exact prefix_of_flatMap_highFirst depth.bits_pos small samples_lt bits

/-- Every row that has room for them holds a number of samples. -/
theorem packs_take {depth : Depth} {row : List UInt8} (whole : depth.bits ∣ 8 * row.length)
    (count : Nat) : depth.Packs ((depth.samples row).take count) row := by
  refine ⟨((depth.samples row).drop count).flatMap (highFirst depth.bits), ?_⟩
  rw [← List.flatMap_append, List.take_append_drop, flatMap_samples whole]

theorem length_samples {depth : Depth} {row : List UInt8} (whole : depth.bits ∣ 8 * row.length) :
    (depth.samples row).length * depth.bits = 8 * row.length := by
  have lengths := congrArg List.length (flatMap_samples whole)
  rw [length_bitsOfRow, List.length_flatMap] at lengths
  simpa using lengths

end Depth

end Blockwright
