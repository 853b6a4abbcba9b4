import Mathlib

/-!
# Rounding of doubles

A rounded number exceeds the exact one by at most half a unit in the last place. A product is
infinite only if it reaches the middle between the largest double and the next power of two.
-/

namespace Blockwright

namespace Double

open Float.Model Float.Model.UnpackedFloat

/-! ## Shifting -/

theorem mantissa_shiftRight (extended : ExtendedMantissa) (count : ℕ) :
    (extended >>> count).mantissa = extended.mantissa / 2 ^ count := by
  induction count with
  | zero => exact (Nat.div_one _).symm
  | succ count ih =>
    have step : (extended >>> (count + 1)).mantissa = (extended >>> count).mantissa / 2 := rfl
    rw [step, ih, Nat.div_div_eq_div_mul, Nat.pow_succ]

theorem two_mul_mantissa_le (mantissa count : ℕ) :
    2 * (ExtendedMantissa.mk mantissa false false >>> count).mantissa * 2 ^ count
        + (if (ExtendedMantissa.mk mantissa false false >>> count).roundBit then 2 ^ count else 0) ≤
      2 * mantissa := by
  induction count with
  | zero => exact Nat.le_of_eq (by simp [HShiftRight.hShiftRight, Nat.repeat])
  | succ count ih =>
    have step : (ExtendedMantissa.mk mantissa false false >>> (count + 1)) =
        (ExtendedMantissa.mk mantissa false false >>> count).shiftRightOne := rfl
    rw [step]
    generalize (ExtendedMantissa.mk mantissa false false >>> count) = shifted at ih
    obtain ⟨left, round, sticky⟩ := shifted
    have whole : 2 * left * 2 ^ count ≤ 2 * mantissa := Nat.le_of_add_right_le ih
    have halves := Nat.mod_add_div left 2
    rw [Nat.pow_succ]
    rcases Nat.mod_two_eq_zero_or_one left with even | odd
    · simp only [ExtendedMantissa.shiftRightOne, even, bne_self_eq_false, Bool.false_eq_true,
        if_false, Nat.add_zero]
      rw [even, Nat.zero_add] at halves
      calc 2 * (left / 2) * (2 ^ count * 2)
          = 2 * (2 * (left / 2)) * 2 ^ count := by ring
        _ ≤ 2 * mantissa := by rwa [halves]
    · simp only [ExtendedMantissa.shiftRightOne, odd, show (1 != 0) = true from rfl, if_true]
      rw [odd] at halves
      calc 2 * (left / 2) * (2 ^ count * 2) + 2 ^ count * 2
          = 2 * (1 + 2 * (left / 2)) * 2 ^ count := by ring
        _ ≤ 2 * mantissa := by rwa [halves]

/-- Only what has at least half a unit left is rounded up. -/
theorem two_mul_roundedMantissa_le (mantissa count : ℕ) :
    2 * (ExtendedMantissa.mk mantissa false false >>> count).roundedMantissa * 2 ^ count ≤
      2 * mantissa + 2 ^ count := by
  have kept := two_mul_mantissa_le mantissa count
  generalize (ExtendedMantissa.mk mantissa false false >>> count) = shifted at kept
  obtain ⟨left, round, sticky⟩ := shifted
  cases round with
  | false =>
    have same : (ExtendedMantissa.mk left false sticky).roundedMantissa = left := by
      cases sticky <;> rfl
    rw [same]
    exact Nat.le_add_right_of_le (Nat.le_of_add_right_le kept)
  | true =>
    have atMost : (ExtendedMantissa.mk left true sticky).roundedMantissa ≤ left + 1 := by
      cases sticky with
      | false =>
        have parity := Nat.mod_lt left (show 0 < 2 by decide)
        exact Nat.add_le_add_left (Nat.le_of_lt_succ parity) left
      | true => exact Nat.le_refl _
    simp only [if_true] at kept
    calc 2 * (ExtendedMantissa.mk left true sticky).roundedMantissa * 2 ^ count
        ≤ 2 * (left + 1) * 2 ^ count := by gcongr
      _ = 2 * left * 2 ^ count + 2 ^ count + 2 ^ count := by ring
      _ ≤ 2 * mantissa + 2 ^ count := by omega

theorem roundedMantissa_bounds (extended : ExtendedMantissa) :
    extended.mantissa ≤ extended.roundedMantissa ∧
      extended.roundedMantissa ≤ extended.mantissa + 1 := by
  obtain ⟨left, round, sticky⟩ := extended
  cases round <;> cases sticky <;>
    simp [ExtendedMantissa.roundedMantissa, ExtendedMantissa.accuracy, Accuracy.roundToNearestEven]
  omega

/-! ## Rounding -/

theorem pow_log2_le {number : ℕ} (positive : number ≠ 0) : (2 : ℚ) ^ number.log2 ≤ number := by
  exact_mod_cast Nat.log2_self_le positive

theorem le_shiftRight_log2 {number : ℕ} (full : 52 ≤ number.log2) :
    2 ^ 52 ≤ number / 2 ^ (number.log2 - 52) ∧ number / 2 ^ (number.log2 - 52) < 2 ^ 53 := by
  have nonzero : number ≠ 0 := by
    rintro rfl
    simp at full
  constructor
  · rw [Nat.le_div_iff_mul_le (by positivity), ← Nat.pow_add, Nat.add_sub_cancel' full]
    exact Nat.log2_self_le nonzero
  · rw [Nat.div_lt_iff_lt_mul (by positivity), ← Nat.pow_add]
    exact Nat.lt_log2_self.trans_le (Nat.pow_le_pow_right (by decide) (by omega))

theorem targetExponent_eq {number : ℕ} {exponent : ℤ} (normal : -1022 ≤ number.log2 + exponent) :
    Format.binary64.targetExponent (totalExponent number exponent) =
      number.log2 + exponent - 52 := by
  simp only [Format.targetExponent, totalExponent, Format.mantissaBits, Format.minExponent]
  norm_num
  omega

theorem shiftToTargetExponent_eq {number : ℕ} {exponent : ℤ} (full : 52 ≤ number.log2)
    (normal : -1022 ≤ number.log2 + exponent) :
    shiftToTargetExponent Format.binary64 number exponent .exact =
      (ExtendedMantissa.mk number false false >>> (number.log2 - 52),
        number.log2 + exponent - 52) := by
  have amount : (number.log2 + exponent - 52 - exponent).toNat = number.log2 - 52 := by omega
  have reached : exponent + ((number.log2 - 52 : ℕ) : ℤ) = number.log2 + exponent - 52 := by omega
  rw [shiftToTargetExponent, targetExponent_eq normal]
  simp only [shiftToExponent, amount, reached, ExtendedMantissa.ofMantissaAndAccuracy]

theorem shiftRight_le (number count : ℕ) (exponent : ℤ) :
    ((number / 2 ^ count : ℕ) : ℚ) * 2 ^ (exponent + count) ≤ number * 2 ^ exponent := by
  have whole : ((number / 2 ^ count : ℕ) : ℚ) * 2 ^ count ≤ number := by
    exact_mod_cast Nat.div_mul_le_self number (2 ^ count)
  calc ((number / 2 ^ count : ℕ) : ℚ) * 2 ^ (exponent + count)
      = (number / 2 ^ count : ℕ) * 2 ^ count * 2 ^ exponent := by
        rw [zpow_add₀ (by decide), zpow_natCast]
        ring
    _ ≤ number * 2 ^ exponent := by gcongr

theorem roundedMantissa_le (number count : ℕ) (exponent : ℤ) :
    ((ExtendedMantissa.mk number false false >>> count).roundedMantissa : ℚ) *
        2 ^ (exponent + count) ≤ number * 2 ^ exponent + 2 ^ (exponent + count - 1) := by
  have whole : 2 * ((ExtendedMantissa.mk number false false >>> count).roundedMantissa : ℚ) *
      2 ^ count ≤ 2 * number + 2 ^ count := by
    exact_mod_cast two_mul_roundedMantissa_le number count
  have double : (2 : ℚ) ^ exponent = 2 * 2 ^ (exponent - 1) := by
    rw [← zpow_one_add₀ (by decide)]
    congr 1
    omega
  have half : (2 : ℚ) ^ (exponent + count - 1) = 2 ^ count * 2 ^ (exponent - 1) := by
    rw [← zpow_natCast, ← zpow_add₀ (by decide)]
    congr 1
    omega
  calc ((ExtendedMantissa.mk number false false >>> count).roundedMantissa : ℚ) *
        2 ^ (exponent + count)
      = 2 * (ExtendedMantissa.mk number false false >>> count).roundedMantissa * 2 ^ count *
          2 ^ (exponent - 1) := by
        rw [zpow_add₀ (by decide), zpow_natCast, double]
        ring
    _ ≤ (2 * number + 2 ^ count) * 2 ^ (exponent - 1) := by gcongr
    _ = number * 2 ^ exponent + 2 ^ (exponent + count - 1) := by
        rw [half, double]
        ring

/-- A number with a full significand is rounded to one with a full significand, by at most half a
unit upwards. -/
theorem roundWithAccuracy_le (sign : Sign) {number : ℕ} {exponent : ℤ} (full : 52 ≤ number.log2)
    (normal : -1022 ≤ number.log2 + exponent) :
    ∃ mantissa power positive,
      roundWithAccuracy Format.binary64 sign number exponent .exact =
        .finite sign mantissa power positive ∧
      2 ^ 52 ≤ mantissa ∧ mantissa < 2 ^ 53 ∧ number.log2 + exponent - 52 ≤ power ∧
      (mantissa : ℚ) * 2 ^ power ≤ number * 2 ^ exponent + 2 ^ (number.log2 + exponent - 53) := by
  set count := number.log2 - 52 with countEq
  set rounded := (ExtendedMantissa.mk number false false >>> count).roundedMantissa with roundedEq
  set target : ℤ := number.log2 + exponent - 52 with targetEq
  have bounds := roundedMantissa_bounds (ExtendedMantissa.mk number false false >>> count)
  rw [mantissa_shiftRight, ← roundedEq] at bounds
  have nonzero : rounded ≠ 0 := by
    have low := (le_shiftRight_log2 full).1.trans bounds.1
    omega
  have fullRounded : 52 ≤ rounded.log2 :=
    (Nat.le_log2 nonzero).2 ((le_shiftRight_log2 full).1.trans bounds.1)
  obtain ⟨low, high⟩ := le_shiftRight_log2 fullRounded
  -- A carry out of the significand takes a second shift, which loses nothing.
  have second := shiftToTargetExponent_eq fullRounded (show -1022 ≤ rounded.log2 + target by omega)
  refine ⟨rounded / 2 ^ (rounded.log2 - 52), rounded.log2 + target - 52, by omega, ?_, low, high,
    by omega, ?_⟩
  · have left : rounded / 2 ^ (rounded.log2 - 52) ≠ 0 := by omega
    rw [roundWithAccuracy, shiftToTargetExponent_eq full normal]
    dsimp only
    rw [← countEq, ← roundedEq, ← targetEq, second]
    simp only [mantissa_shiftRight]
    rw [dif_neg left]
  · have shifted := shiftRight_le rounded (rounded.log2 - 52) target
    have grown := roundedMantissa_le number count exponent
    rw [← roundedEq] at grown
    have reached : exponent + (count : ℤ) = target := by omega
    have reached' : target + ((rounded.log2 - 52 : ℕ) : ℤ) = rounded.log2 + target - 52 := by omega
    have half : target - 1 = number.log2 + exponent - 53 := by omega
    rw [reached'] at shifted
    rw [reached, half] at grown
    exact shifted.trans grown

/-! ## Packing -/

theorem toNat_implicit (mantissa : ℕ) :
    (1#1 ++ BitVec.ofNat 52 mantissa).toNat = 2 ^ 52 + mantissa % 2 ^ 52 := by
  rw [BitVec.toNat_append, ← Nat.shiftLeft_add_eq_or_of_lt (BitVec.isLt _), BitVec.toNat_ofNat]
  rfl

/-- A number with a full significand is packed and unpacked unless its exponent is too large. -/
theorem unpack_pack {sign : Sign} {mantissa : ℕ} {power : ℤ} {positive : 0 < mantissa}
    (low : 2 ^ 52 ≤ mantissa) (high : mantissa < 2 ^ 53) (least : -1074 ≤ power)
    (most : power ≤ 971) :
    ∃ packedSign,
      UnpackedFloat.unpack Format.binary64
          (UnpackedFloat.pack Format.binary64 (.finite sign mantissa power positive)) =
        .finite packedSign mantissa power positive := by
  have log : mantissa.log2 + 1 = Format.binary64.mantissaBits := by
    rw [(Nat.log2_eq_iff (by omega)).2 ⟨low, high⟩]
    rfl
  set biased := (power + 1023 + 52).toNat with biasedEq
  have fits : ¬2 ^ 11 ≤ biased + 1 := by omega
  have biasedValue : (BitVec.ofNat 11 biased).toNat = biased := by
    rw [BitVec.toNat_ofNat, Nat.mod_eq_of_lt (by omega)]
  have notLast : BitVec.ofNat 11 biased ≠ -1#11 := by
    intro same
    have values := congrArg BitVec.toNat same
    rw [biasedValue] at values
    simp at values
    omega
  have notFirst : BitVec.ofNat 11 biased ≠ 0#11 := by
    intro same
    have values := congrArg BitVec.toNat same
    rw [biasedValue] at values
    simp at values
    omega
  have implicit : (1#1 ++ BitVec.ofNat 52 mantissa).toNat = mantissa := by
    rw [toNat_implicit]
    omega
  have packed : UnpackedFloat.pack Format.binary64 (.finite sign mantissa power positive) =
      packComponents Format.binary64 sign (BitVec.ofNat 11 biased) (BitVec.ofNat 52 mantissa) := by
    rw [UnpackedFloat.pack]
    simp only [log, if_true]
    exact if_neg fits
  rw [packed]
  refine ⟨Sign.ofBitVec (unpackSign (packComponents Format.binary64 sign (BitVec.ofNat 11 biased)
    (BitVec.ofNat 52 mantissa))), ?_⟩
  rw [UnpackedFloat.unpack]
  simp only [unpackMantissa_packComponents, unpackExponent_packComponents, notLast, notFirst,
    if_false, implicit, biasedValue]
  congr 1
  simp only [Format.exponentBias]
  omega

/-! ## Numbers that stay finite -/

/-- What a number may grow by when it is rounded, relative to its size. -/
def growth : ℚ := 1 + 2 ^ (-53 : ℤ)

/-- The middle between the largest double and the next power of two. -/
def middle : ℚ := (2 ^ 54 - 1) * 2 ^ (970 : ℤ)

theorem middle_add_half_unit : middle + 2 ^ (970 : ℤ) = 2 ^ (52 + 972 : ℤ) := by
  rw [middle, show (52 + 972 : ℤ) = (54 : ℕ) + 970 by decide, zpow_add₀ (by decide), zpow_natCast]
  ring

theorem two_pow_lt_middle : (2 : ℚ) ^ (1023 : ℤ) < middle := by
  rw [middle, show (1023 : ℤ) = (53 : ℕ) + 970 by decide, zpow_add₀ (by decide), zpow_natCast]
  gcongr
  norm_num

theorem middle_eq_cast : middle = (((2 ^ 54 - 1) * 2 ^ 970 : ℕ) : ℚ) := by
  rw [Nat.cast_mul, Nat.cast_pow, Nat.cast_ofNat, middle]
  norm_num

/-- The powers of ten in the range of doubles. -/
theorem ten_pow_lt_middle {exponent : ℕ} : (10 : ℚ) ^ exponent < middle ↔ exponent ≤ 308 := by
  have within : 10 ^ 308 < (2 ^ 54 - 1) * 2 ^ 970 := by decide +kernel
  have beyond : (2 ^ 54 - 1) * 2 ^ 970 < 10 ^ (308 + 1) := by decide +kernel
  have cast : (10 : ℚ) ^ exponent = (10 ^ exponent : ℕ) := by rw [Nat.cast_pow, Nat.cast_ofNat]
  rw [middle_eq_cast, cast, Nat.cast_lt]
  generalize 308 = limit at within beyond ⊢
  constructor
  · intro below
    exact Nat.le_of_lt_succ ((Nat.pow_lt_pow_iff_right (by decide)).1 (below.trans beyond))
  · intro small
    exact (Nat.pow_le_pow_right (by decide) small).trans_lt within

theorem half_unit_le {number : ℕ} (nonzero : number ≠ 0) (exponent : ℤ) :
    (number : ℚ) * 2 ^ exponent + 2 ^ (number.log2 + exponent - 53) ≤
      number * 2 ^ exponent * growth := by
  have unit : (2 : ℚ) ^ (number.log2 + exponent - 53) =
      2 ^ number.log2 * 2 ^ exponent * 2 ^ (-53 : ℤ) := by
    rw [← zpow_natCast, ← zpow_add₀ (by decide), ← zpow_add₀ (by decide)]
    congr 1
  have leading := pow_log2_le nonzero
  calc (number : ℚ) * 2 ^ exponent + 2 ^ (number.log2 + exponent - 53)
      = number * 2 ^ exponent + 2 ^ number.log2 * 2 ^ exponent * 2 ^ (-53 : ℤ) := by rw [unit]
    _ ≤ number * 2 ^ exponent + number * 2 ^ exponent * 2 ^ (-53 : ℤ) := by gcongr
    _ = number * 2 ^ exponent * growth := by
        rw [growth]
        ring

theorem log2_add_lt {number : ℕ} {exponent limit : ℤ} (nonzero : number ≠ 0)
    (below : (number : ℚ) * 2 ^ exponent < 2 ^ limit) : number.log2 + exponent < limit := by
  have leading := pow_log2_le nonzero
  have spread : (2 : ℚ) ^ (number.log2 + exponent) < 2 ^ limit :=
    calc (2 : ℚ) ^ (number.log2 + exponent) = 2 ^ number.log2 * 2 ^ exponent := by
          rw [zpow_add₀ (by decide), zpow_natCast]
      _ ≤ number * 2 ^ exponent := by gcongr
      _ < 2 ^ limit := below
  exact (zpow_lt_zpow_iff_right₀ (by decide)).1 spread

theorem unpack_round (sign : Sign) {number : ℕ} {exponent : ℤ} (full : 52 ≤ number.log2)
    (normal : -1022 ≤ number.log2 + exponent) (small : (number : ℚ) * 2 ^ exponent < middle) :
    ∃ packedSign mantissa power positive,
      (Float.Model.pack (roundWithAccuracy Format.binary64 sign number exponent .exact)).unpack =
        .finite packedSign mantissa power positive ∧
      2 ^ 52 ≤ mantissa ∧ number.log2 + exponent - 52 ≤ power ∧
      (mantissa : ℚ) * 2 ^ power ≤ number * 2 ^ exponent * growth := by
  have nonzero : number ≠ 0 := by
    rintro rfl
    simp at full
  obtain ⟨mantissa, power, positive, rounded, low, high, least, bound⟩ :=
    roundWithAccuracy_le sign full normal
  have leading : number.log2 + exponent < 52 + 972 := by
    refine log2_add_lt nonzero (small.trans ?_)
    rw [← middle_add_half_unit]
    exact lt_add_of_pos_right _ (by positivity)
  have halfUnit : (2 : ℚ) ^ (number.log2 + exponent - 53) ≤ 2 ^ (970 : ℤ) :=
    zpow_le_zpow_right₀ (by decide) (by omega)
  have below : (mantissa : ℚ) * 2 ^ power < 2 ^ (52 + 972 : ℤ) := by
    rw [← middle_add_half_unit]
    linarith
  have log : mantissa.log2 = 52 := (Nat.log2_eq_iff positive.ne').2 ⟨low, high⟩
  have most := log2_add_lt positive.ne' below
  obtain ⟨packedSign, unpacked⟩ : ∃ packedSign, UnpackedFloat.unpack Format.binary64
      (UnpackedFloat.pack Format.binary64 (.finite sign mantissa power positive)) =
        .finite packedSign mantissa power positive :=
    unpack_pack low high (by omega) (by omega)
  refine ⟨packedSign, mantissa, power, positive, ?_, low, least,
    bound.trans (half_unit_le nonzero exponent)⟩
  rw [rounded]
  exact unpacked

/-! ## Doubles of bounded size -/

/-- Whether the size of a double is at least one and at most a bound. -/
def AtMost (double : Float) (bound : ℚ) : Prop :=
  ∃ sign mantissa power positive, double.toModel.unpack = .finite sign mantissa power positive ∧
    2 ^ 52 ≤ mantissa ∧ -52 ≤ power ∧ (mantissa : ℚ) * 2 ^ power ≤ bound

theorem atMost_of_round {double : Float} {sign : Sign} {number : ℕ} {exponent : ℤ}
    (full : 52 ≤ number.log2) (normal : 0 ≤ number.log2 + exponent)
    (small : (number : ℚ) * 2 ^ exponent < middle)
    (rounded : double.toModel =
      Float.Model.pack (roundWithAccuracy Format.binary64 sign number exponent .exact)) :
    AtMost double (number * 2 ^ exponent * growth) := by
  obtain ⟨packedSign, mantissa, power, positive, unpacked, low, least, bound⟩ :=
    unpack_round sign full (show -1022 ≤ number.log2 + exponent by omega) small
  rw [← rounded] at unpacked
  exact ⟨packedSign, mantissa, power, positive, unpacked, low, by omega, bound⟩

/-- A product of doubles is finite if the product of their bounds stays below the middle. -/
theorem isInf_mul_eq_false {first second : Float} {firstBound secondBound : ℚ}
    (firstAtMost : AtMost first firstBound) (secondAtMost : AtMost second secondBound)
    (small : firstBound * secondBound < middle) : (first * second).isInf = false := by
  obtain ⟨firstSign, mantissa, power, positive, unpacked, low, least, bound⟩ := firstAtMost
  obtain ⟨secondSign, otherMantissa, otherPower, otherPositive, otherUnpacked, otherLow,
    otherLeast, otherBound⟩ := secondAtMost
  have multiplied : (first * second).toModel = Float.Model.pack
      (UnpackedFloat.mul Format.binary64 first.toModel.unpack second.toModel.unpack) := rfl
  rw [unpacked, otherUnpacked] at multiplied
  have nonzero : mantissa * otherMantissa ≠ 0 := (Nat.mul_pos positive otherPositive).ne'
  have full : 104 ≤ (mantissa * otherMantissa).log2 := by
    rw [Nat.le_log2 nonzero, show 2 ^ 104 = 2 ^ 52 * 2 ^ 52 from rfl]
    exact Nat.mul_le_mul low otherLow
  have exact : ((mantissa * otherMantissa : ℕ) : ℚ) * 2 ^ (power + otherPower) < middle :=
    calc ((mantissa * otherMantissa : ℕ) : ℚ) * 2 ^ (power + otherPower)
        = (mantissa * 2 ^ power) * (otherMantissa * 2 ^ otherPower) := by
          rw [zpow_add₀ (by decide)]
          push_cast
          ring
      _ ≤ firstBound * secondBound := by
          have nonneg : (0 : ℚ) ≤ mantissa * 2 ^ power := by positivity
          exact mul_le_mul bound otherBound (by positivity) (nonneg.trans bound)
      _ < middle := small
  obtain ⟨packedSign, result, resultPower, resultPositive, isResult, -⟩ :=
    unpack_round (firstSign * secondSign) (show 52 ≤ (mantissa * otherMantissa).log2 by omega)
      (show -1022 ≤ ((mantissa * otherMantissa).log2 : ℤ) + (power + otherPower) by omega) exact
  rw [Float.isInf, Float.Model.isInf, multiplied]
  exact congrArg UnpackedFloat.isInf isResult

theorem log2_shiftLeft {number : ℕ} (nonzero : number ≠ 0) (count : ℕ) :
    (number <<< count).log2 = number.log2 + count := by
  induction count with
  | zero => rfl
  | succ count ih =>
    have left : number <<< count ≠ 0 := by simp [Nat.shiftLeft_eq, nonzero]
    rw [Nat.shiftLeft_succ, Nat.log2_two_mul left, ih, Nat.add_assoc]

theorem shiftLeft_mul (number count : ℕ) :
    ((number <<< count : ℕ) : ℚ) * 2 ^ (-count : ℤ) = number := by
  rw [Nat.shiftLeft_eq, Nat.cast_mul, Nat.cast_pow, mul_assoc, ← zpow_natCast, Nat.cast_ofNat,
    ← zpow_add₀ (by decide), add_neg_cancel, zpow_zero, mul_one]

/-- A natural number below the range of words as a double. -/
theorem atMost_toFloat {number : ℕ} (positive : 0 < number) (small : number < 2 ^ 64) :
    AtMost (UInt64.ofNat number).toFloat (number * growth) := by
  have word : (UInt64.ofNat number).toNat = number := Nat.mod_eq_of_lt small
  have compared : compare (number : ℤ) 0 = .gt := by
    rw [Int.compare_eq_gt]
    exact_mod_cast positive
  have rounded : (UInt64.ofNat number).toFloat.toModel = Float.Model.pack
      (roundWithAccuracy Format.binary64 .positive (number <<< (52 - number.log2))
        (-(52 - number.log2 : ℕ)) .exact) := by
    have converted : (UInt64.ofNat number).toFloat.toModel = Float.Model.pack
        (UnpackedFloat.normalize Format.binary64 (UInt64.ofNat number).toNat 0 .positive) := rfl
    have target := @targetExponent_eq number 0 (by omega)
    have amount : (-(number.log2 + 0 - 52 : ℤ)).toNat = 52 - number.log2 := by omega
    rw [converted, word, UnpackedFloat.normalize, compared]
    simp only [UnpackedFloat.round, Int.toNat_natCast, target, decreaseExponent, zero_sub, amount]
  have log := log2_shiftLeft positive.ne' (52 - number.log2)
  have value := shiftLeft_mul number (52 - number.log2)
  have below : (number : ℚ) < middle := by
    have word : (number : ℚ) < 2 ^ (64 : ℤ) := by exact_mod_cast small
    exact word.trans ((zpow_le_zpow_right₀ (by decide) (by decide)).trans_lt two_pow_lt_middle)
  have bound := atMost_of_round (show 52 ≤ (number <<< (52 - number.log2)).log2 by omega)
    (by omega) (by rwa [value]) rounded
  rwa [value] at bound

theorem toModel_power {exponent : ℕ} (large : 22 < exponent) (small : exponent ≤ 308) :
    (Float.ofScientific 1 false exponent).toModel = Float.Model.pack
      (roundWithAccuracy Format.binary64 .positive ((1 <<< 53) * 10 ^ exponent) (-53) .exact) := by
  have slow : (Float.ofScientific 1 false exponent).toModel =
      Float.Model.ofScientific 1 (Int.ofNat exponent) := by
    rw [Float.ofScientific, dif_neg (by omega)]
    rfl
  have tooLarge : ¬Int.ofNat exponent > 2 ^ 11 := by
    simp
    omega
  have tooSmall : ¬Int.ofNat exponent < -((2 ^ 11 : Int) + (1 : Nat).log2) := by
    simp
    omega
  have whole : 0 ≤ Int.ofNat exponent := Int.natCast_nonneg exponent
  rw [slow, Float.Model.ofScientific, UnpackedFloat.ofScientific, dif_neg (by decide),
    if_neg tooLarge, if_neg tooSmall, if_pos whole]
  rfl

/-- Whether the size of a double is at least one and at most a natural number. -/
def isWithin (double : Float) (limit : ℕ) : Bool :=
  match double.toModel.unpack with
  | .finite _ mantissa power _ =>
    2 ^ 52 ≤ mantissa && -52 ≤ power && mantissa * 2 ^ power.toNat ≤ limit * 2 ^ (-power).toNat
  | _ => false

theorem atMost_of_isWithin {double : Float} {limit : ℕ} (within : isWithin double limit = true) :
    AtMost double limit := by
  rw [isWithin] at within
  split at within
  · next sign mantissa power positive unpacked =>
    simp only [Bool.and_eq_true, decide_eq_true_eq] at within
    obtain ⟨⟨low, least⟩, bound⟩ := within
    refine ⟨sign, mantissa, power, positive, unpacked, low, least, ?_⟩
    have scaled : (mantissa : ℚ) * 2 ^ power.toNat ≤ limit * 2 ^ (-power).toNat := by
      exact_mod_cast bound
    have unit : (2 : ℚ) ^ power = 2 ^ power.toNat * (2 ^ (-power).toNat)⁻¹ := by
      rw [← zpow_natCast, ← zpow_natCast, ← zpow_neg, ← zpow_add₀ (by decide)]
      congr 1
      omega
    calc (mantissa : ℚ) * 2 ^ power
        = mantissa * 2 ^ power.toNat * (2 ^ (-power).toNat)⁻¹ := by rw [unit, mul_assoc]
      _ ≤ limit * 2 ^ (-power).toNat * (2 ^ (-power).toNat)⁻¹ := by gcongr
      _ = limit := mul_inv_cancel_right₀ (by positivity) _
  · cases within

/-- A power of ten in the range of doubles as a double. -/
theorem atMost_power {exponent : ℕ} (small : exponent ≤ 308) :
    AtMost (Float.ofScientific 1 false exponent) (10 ^ exponent * growth) := by
  rcases Nat.lt_or_ge 22 exponent with large | tabled
  · have value : ((1 <<< 53 * 10 ^ exponent : ℕ) : ℚ) * 2 ^ (-53 : ℤ) = 10 ^ exponent := by
      rw [Nat.shiftLeft_eq, Nat.one_mul, Nat.cast_mul, Nat.cast_pow, Nat.cast_pow, Nat.cast_ofNat,
        Nat.cast_ofNat, mul_right_comm, ← zpow_natCast, ← zpow_add₀ (by decide)]
      norm_num
    have full : 53 ≤ (1 <<< 53 * 10 ^ exponent).log2 := by
      rw [Nat.le_log2 (Nat.mul_ne_zero (by decide) (by positivity))]
      exact Nat.le_mul_of_pos_right _ (by positivity)
    have bound := atMost_of_round (by omega) (by omega)
      (by rw [value]; exact ten_pow_lt_middle.2 small) (toModel_power large small)
    rwa [value] at bound
  · have exact : ∀ exponent < 23, isWithin (Float.ofScientific 1 false exponent) (10 ^ exponent) =
        true := by decide +kernel
    obtain ⟨sign, mantissa, power, positive, unpacked, low, least, bound⟩ :=
      atMost_of_isWithin (exact exponent (by omega))
    refine ⟨sign, mantissa, power, positive, unpacked, low, least, bound.trans ?_⟩
    push_cast
    exact le_mul_of_one_le_right (by positivity) (by norm_num [growth])

end Double

end Blockwright
