import Blockwright.Proofs.Decimal.Rounding
import Blockwright.Proofs.Decimal.Shortest
import Blockwright.Proofs.Json.Numbers

/-!
# Digits and powers of ten of doubles

The digits of a finite double and its power of ten are read as a double: their product stays in
the range of doubles, although both factors and the product are rounded.
-/

namespace Blockwright

/-! ## The binary number of a double -/

namespace Binary

/-- A finite double has a significand of 53 bits and an exponent in the range of doubles. -/
theorem ofDouble_bounds {double : Float} (finite : double.isFinite = true) :
    (ofDouble double).mantissa < 2 ^ 53 ∧ -1074 ≤ (ofDouble double).exponent ∧
      (ofDouble double).exponent ≤ 971 ∧
      ((ofDouble double).narrow = true → (ofDouble double).mantissa = 2 ^ 52) := by
  have biased : (double.toBits.toNat >>> 52) % (1 <<< 11) ≠ 2047 := by
    intro last
    have exponent : @Float.Model.UnpackedFloat.unpackExponent
        Float.Model.Format.binary64 double.toModel.toBits.toBitVec = -1#11 := by
      apply BitVec.eq_of_toNat_eq
      rw [show (-1#11).toNat = 2047 from rfl, ← last]
      simp [Float.Model.UnpackedFloat.unpackExponent, Float.toBits]
    rw [Float.isFinite, Float.Model.isFinite, Float.Model.unpack,
      Float.Model.UnpackedFloat.unpack] at finite
    simp only [exponent, if_true] at finite
    split at finite <;> cases finite
  have small := Nat.mod_lt (double.toBits.toNat >>> 52) (show 0 < 1 <<< 11 by decide)
  have fraction := Nat.mod_lt double.toBits.toNat (show 0 < 1 <<< 52 by decide)
  simp only [Nat.shiftLeft_eq] at biased small fraction
  rw [ofDouble]
  simp only [Nat.shiftLeft_eq]
  split
  · dsimp only
    exact ⟨by omega, by omega, by omega, fun narrow => by cases narrow⟩
  · next normal =>
    simp only [beq_iff_eq] at normal
    simp only [Int.ofNat_eq_natCast, Bool.and_eq_true, beq_iff_eq]
    exact ⟨by omega, by omega, by omega, fun narrow => by omega⟩

/-- Only zero has no significand. -/
theorem mantissa_ofDouble_pos {double : Float} (nonzero : (double == 0.0) = false) :
    0 < (ofDouble double).mantissa := by
  refine Nat.pos_of_ne_zero fun isZero => ?_
  have fields : double.toBits.toNat % 2 ^ 52 = 0 ∧ (double.toBits.toNat >>> 52) % 2 ^ 11 = 0 := by
    rw [ofDouble] at isZero
    simp only [Nat.shiftLeft_eq] at isZero
    split at isZero
    · next subnormal =>
      simp only [beq_iff_eq] at subnormal
      exact ⟨by simpa using isZero, by simpa using subnormal⟩
    · simp at isZero
  have mantissa : @Float.Model.UnpackedFloat.unpackMantissa
      Float.Model.Format.binary64 double.toModel.toBits.toBitVec = 0#52 := by
    apply BitVec.eq_of_toNat_eq
    simpa [Float.Model.UnpackedFloat.unpackMantissa, Float.toBits] using fields.1
  have exponent : @Float.Model.UnpackedFloat.unpackExponent
      Float.Model.Format.binary64 double.toModel.toBits.toBitVec = 0#11 := by
    apply BitVec.eq_of_toNat_eq
    simpa [Float.Model.UnpackedFloat.unpackExponent, Float.toBits] using fields.2
  have unpacked : ∃ sign, double.toModel.unpack = .zero sign := by
    rw [Float.Model.unpack, Float.Model.UnpackedFloat.unpack]
    simp only [exponent, mantissa]
    exact ⟨_, rfl⟩
  obtain ⟨sign, unpacked⟩ := unpacked
  have equal : (double == 0.0) = double.toModel.unpack.beq (0.0 : Float).toModel.unpack := rfl
  rw [equal, unpacked] at nonzero
  cases sign <;> revert nonzero <;> decide +kernel

end Binary

namespace Json

namespace Token

/-! ## Values of digits -/

/-- What is divided by powers of ten stays in the range of doubles. -/
theorem scale_of_neg (fuel : ℕ) (double : Float) {exponent : ℤ} (negative : exponent < 0) :
    ∃ result, scale fuel double exponent = some result := by
  induction fuel generalizing double exponent with
  | zero => exact ⟨double, rfl⟩
  | succ fuel ih =>
    rw [scale]
    split
    · rw [if_neg (by omega)]
      exact ⟨_, rfl⟩
    · split
      · exact ⟨double, rfl⟩
      · rw [if_neg (by omega)]
        exact ih _ (by omega)

theorem scale_of_finite (fuel : ℕ) {double : Float} {exponent : ℕ} (small : exponent ≤ 308)
    (finite : (double * Float.ofScientific 1 false exponent).isInf = false) :
    ∃ result, scale (fuel + 1) double exponent = some result := by
  rw [scale, if_pos (by simpa using small), if_pos (Int.natCast_nonneg exponent)]
  simp only [Int.natAbs_natCast, finite]
  exact ⟨_, rfl⟩

theorem room_for_growth {x : Binary} (mantissa : x.mantissa < 2 ^ 53) (exponent : x.exponent ≤ 971)
    (notTop : x.exponent = 971 → x.mantissa + 3 < 2 ^ 53) :
    ((x.mantissa : ℚ) + 1 / 2) * 2 ^ x.exponent ≤ (2 ^ 54 - 7) * 2 ^ (970 : ℤ) := by
  rcases exponent.lt_or_eq with below | top
  · have short : (x.mantissa : ℚ) + 1 / 2 ≤ 2 ^ 54 - 7 := by
      have whole : ((x.mantissa : ℕ) : ℚ) < 2 ^ 53 := by exact_mod_cast mantissa
      linarith
    have power : (2 : ℚ) ^ x.exponent ≤ 2 ^ (970 : ℤ) := zpow_le_zpow_right₀ (by decide) (by omega)
    exact mul_le_mul short power (by positivity) (by norm_num)
  · have short : (x.mantissa : ℚ) + 4 ≤ 2 ^ 53 := by exact_mod_cast notTop top
    have unit : (0 : ℚ) ≤ 2 ^ (970 : ℤ) := by positivity
    rw [top, show (971 : ℤ) = 1 + 970 by decide, zpow_add₀ (by decide), zpow_one, ← mul_assoc]
    exact mul_le_mul_of_nonneg_right (by linarith only [short]) unit

theorem scale_top {x : Binary} (exponent : x.exponent = 971) (narrow : x.narrow = false)
    (mantissa : x.mantissa < 2 ^ 53) (top : 2 ^ 53 ≤ x.mantissa + 3) :
    ∃ result, scale 4 (UInt64.ofNat (x.shortest.trimZeros 20).digits).toFloat
      (x.shortest.trimZeros 20).exponent = some result := by
  have each : ∀ below < 3, ∃ x : Binary, x = ⟨2 ^ 53 - 1 - below, 971, false⟩ ∧
      10 ^ 708 ≤ 4 * x.mantissa * (x.scale (-400)).1 / (x.scale (-400)).2 ∧
      4 * x.mantissa * (x.scale (-400)).1 / (x.scale (-400)).2 < 10 ^ (708 + 1) ∧
      (scale 4 (UInt64.ofNat ((x.search 309 18 1).trimZeros 20).digits).toFloat
        ((x.search 309 18 1).trimZeros 20).exponent).isSome = true := by
    intro below few
    refine ⟨_, rfl, ?_⟩
    revert below
    decide +kernel
  obtain ⟨size, power, isNarrow⟩ := x
  obtain rfl : power = 971 := exponent
  obtain rfl : isNarrow = false := narrow
  dsimp only at mantissa top
  obtain ⟨x, form, low, high, found⟩ := each (2 ^ 53 - 1 - size) (by omega)
  rw [show 2 ^ 53 - 1 - (2 ^ 53 - 1 - size) = size by omega] at form
  subst form
  rw [Binary.shortest, Binary.magnitude_eq _ (by decide) low high]
  exact Option.isSome_iff_exists.1 found

/-- The shortest decimal of a finite double is read in the range of doubles. -/
theorem scale_shortest {x : Binary} (mantissa : x.mantissa < 2 ^ 53) (exponent : x.exponent ≤ 971)
    (narrow : x.narrow = true → x.mantissa = 2 ^ 52)
    (positive : 0 < (x.shortest.trimZeros 20).digits) :
    ∃ result, scale 4 (UInt64.ofNat (x.shortest.trimZeros 20).digits).toFloat
      (x.shortest.trimZeros 20).exponent = some result := by
  by_cases top : x.exponent = 971 ∧ 2 ^ 53 ≤ x.mantissa + 3
  · refine scale_top top.1 (Bool.eq_false_iff.2 fun isNarrow => ?_) mantissa top.2
    have small := narrow isNarrow
    omega
  · obtain ⟨digits, bound⟩ := x.trimZeros_shortest_bounds 20
    have room := room_for_growth mantissa exponent fun isTop =>
      Nat.lt_of_not_le fun large => top ⟨isTop, large⟩
    rw [Decimal.value] at bound
    generalize (x.shortest.trimZeros 20) = decimal at digits bound positive
    rcases lt_or_ge decimal.exponent 0 with negative | whole
    · exact scale_of_neg 4 _ negative
    · obtain ⟨power, isPower⟩ := Int.eq_ofNat_of_zero_le whole
      rw [isPower] at bound ⊢
      rw [zpow_natCast] at bound
      have least : (1 : ℚ) ≤ decimal.digits := by exact_mod_cast positive
      have unit : (0 : ℚ) < 2 ^ (970 : ℤ) := by positivity
      have small : power ≤ 308 := by
        refine Double.ten_pow_lt_middle.1 ?_
        calc (10 : ℚ) ^ power ≤ decimal.digits * 10 ^ power :=
              le_mul_of_one_le_left (by positivity) least
          _ ≤ (2 ^ 54 - 7) * 2 ^ (970 : ℤ) := bound.trans room
          _ < Double.middle := mul_lt_mul_of_pos_right (by norm_num) unit
      have product : ((decimal.digits : ℚ) * Double.growth) * (10 ^ power * Double.growth) <
          Double.middle :=
        calc ((decimal.digits : ℚ) * Double.growth) * (10 ^ power * Double.growth)
            = decimal.digits * 10 ^ power * (Double.growth * Double.growth) := by ring
          _ ≤ (2 ^ 54 - 7) * 2 ^ (970 : ℤ) * (Double.growth * Double.growth) :=
              mul_le_mul_of_nonneg_right (bound.trans room) (mul_self_nonneg _)
          _ = (2 ^ 54 - 7) * (Double.growth * Double.growth) * 2 ^ (970 : ℤ) := by ring
          _ < Double.middle := mul_lt_mul_of_pos_right (by norm_num [Double.growth]) unit
      exact scale_of_finite 3 small (Double.isInf_mul_eq_false
        (Double.atMost_toFloat positive (by omega)) (Double.atMost_power small) product)

end Token

end Json

end Blockwright
