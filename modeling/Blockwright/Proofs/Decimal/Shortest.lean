import Mathlib
import Blockwright.Decimal.Shortest

/-!
# Size of shortest decimals

The shortest decimal of a binary number exceeds it by at most half a unit, and has at most eighteen
digits.
-/

namespace Blockwright

namespace Decimal

/-- The number that a decimal stands for. -/
def value (decimal : Decimal) : ℚ := decimal.digits * 10 ^ decimal.exponent

theorem value_trimZeros (fuel : ℕ) (decimal : Decimal) :
    (decimal.trimZeros fuel).value = decimal.value := by
  induction fuel generalizing decimal with
  | zero => rfl
  | succ fuel ih =>
    rw [trimZeros]
    split
    · next trailing =>
      simp only [Bool.and_eq_true, beq_iff_eq] at trailing
      have whole : (decimal.digits : ℚ) = 10 * (decimal.digits / 10 : ℕ) := by
        exact_mod_cast (Nat.mul_div_cancel' (Nat.dvd_of_mod_eq_zero trailing.2)).symm
      rw [ih, value, value, zpow_add_one₀ (by decide), whole]
      ring
    · rfl

theorem digits_trimZeros_pos {decimal : Decimal} (positive : 0 < decimal.digits) (fuel : ℕ) :
    0 < (decimal.trimZeros fuel).digits := by
  induction fuel generalizing decimal with
  | zero => exact positive
  | succ fuel ih =>
    rw [trimZeros]
    split
    · next trailing =>
      simp only [Bool.and_eq_true, beq_iff_eq] at trailing
      refine ih ?_
      dsimp only
      omega
    · exact positive

theorem digits_trimZeros_le (fuel : ℕ) (decimal : Decimal) :
    (decimal.trimZeros fuel).digits ≤ decimal.digits := by
  induction fuel generalizing decimal with
  | zero => exact Nat.le_refl _
  | succ fuel ih =>
    rw [trimZeros]
    split
    · exact (ih _).trans (Nat.div_le_self _ _)
    · exact Nat.le_refl _

end Decimal

namespace Binary

variable (x : Binary)

/-- The number that a binary stands for. -/
def value : ℚ := x.mantissa * 2 ^ x.exponent

theorem pow_toNat {base : ℚ} (nonzero : base ≠ 0) (power : ℤ) :
    base ^ power.toNat = base ^ power * base ^ (-power).toNat := by
  rw [← zpow_natCast, ← zpow_natCast, ← zpow_add₀ nonzero]
  congr 1
  omega

theorem scale_eq (place : ℤ) :
    ((x.scale place).1 : ℚ) * 10 ^ place = 2 ^ (x.exponent - 2) * (x.scale place).2 := by
  have tens := @pow_toNat 10 (by decide) (-place)
  have twos := @pow_toNat 2 (by decide) (x.exponent - 2)
  rw [neg_neg] at tens
  simp only [scale, Nat.pow_eq, Nat.cast_mul, Nat.cast_pow, Nat.cast_ofNat]
  rw [tens, twos, zpow_neg]
  have positive : (10 : ℚ) ^ place ≠ 0 := by positivity
  field_simp

theorem scale_pos (place : ℤ) : 0 < (x.scale place).2 := by
  simp only [scale, Nat.pow_eq]
  positivity

theorem quarter_unit (number : ℚ) :
    4 * number * 2 ^ (x.exponent - 2) = number * 2 ^ x.exponent := by
  rw [zpow_sub₀ (by decide)]
  ring

theorem scaled_eq (number : ℚ) (place : ℤ) :
    4 * number * (x.scale place).1 * 10 ^ place = number * 2 ^ x.exponent * (x.scale place).2 := by
  rw [mul_assoc, scale_eq, ← mul_assoc, quarter_unit]

theorem quotient_bounds (place : ℤ) :
    ((4 * x.mantissa * (x.scale place).1 / (x.scale place).2 : ℕ) : ℚ) * 10 ^ place ≤ x.value ∧
      x.value < ((4 * x.mantissa * (x.scale place).1 / (x.scale place).2 + 1 : ℕ) : ℚ) *
        10 ^ place := by
  set quotient := 4 * x.mantissa * (x.scale place).1 / (x.scale place).2 with quotientEq
  have positive : (0 : ℚ) < (x.scale place).2 := by exact_mod_cast x.scale_pos place
  have unit : (0 : ℚ) < 10 ^ place := by positivity
  have scaled := x.scaled_eq x.mantissa place
  have low : ((quotient * (x.scale place).2 : ℕ) : ℚ) ≤ (4 * x.mantissa * (x.scale place).1 : ℕ) :=
    Nat.cast_le.2 (Nat.div_mul_le_self _ _)
  have high : ((4 * x.mantissa * (x.scale place).1 : ℕ) : ℚ) <
      ((quotient + 1) * (x.scale place).2 : ℕ) :=
    Nat.cast_lt.2 (Nat.lt_mul_of_div_lt (Nat.lt_succ_self quotient) (x.scale_pos place))
  push_cast at low high ⊢
  constructor
  · refine le_of_mul_le_mul_right ?_ positive
    calc (quotient : ℚ) * 10 ^ place * (x.scale place).2
        = quotient * (x.scale place).2 * 10 ^ place := by ring
      _ ≤ 4 * x.mantissa * (x.scale place).1 * 10 ^ place := by gcongr
      _ = x.value * (x.scale place).2 := scaled
  · refine lt_of_mul_lt_mul_right ?_ positive.le
    calc x.value * (x.scale place).2
        = 4 * x.mantissa * (x.scale place).1 * 10 ^ place := scaled.symm
      _ < (quotient + 1) * (x.scale place).2 * 10 ^ place := by gcongr
      _ = (quotient + 1) * 10 ^ place * (x.scale place).2 := by ring

theorem le_of_rounds {place : ℤ} {candidate : ℕ} (rounds : x.rounds place candidate = true) :
    (candidate : ℚ) * 10 ^ place ≤ (x.mantissa + 1 / 2) * 2 ^ x.exponent := by
  have bound : candidate * (x.scale place).2 ≤ (4 * x.mantissa + 2) * (x.scale place).1 := by
    rw [Binary.rounds] at rounds
    dsimp only at rounds
    split at rounds
    · simp only [Bool.and_eq_true, decide_eq_true_eq] at rounds
      exact rounds.2
    · simp only [Bool.and_eq_true, decide_eq_true_eq] at rounds
      exact rounds.2.le
  have positive : (0 : ℚ) < (x.scale place).2 := by exact_mod_cast x.scale_pos place
  have whole : (candidate : ℚ) * (x.scale place).2 ≤ (4 * x.mantissa + 2) * (x.scale place).1 := by
    exact_mod_cast bound
  refine le_of_mul_le_mul_right ?_ positive
  calc (candidate : ℚ) * 10 ^ place * (x.scale place).2
      = candidate * (x.scale place).2 * 10 ^ place := by ring
    _ ≤ (4 * x.mantissa + 2) * (x.scale place).1 * 10 ^ place := by gcongr
    _ = 4 * (x.mantissa + 1 / 2) * (x.scale place).1 * 10 ^ place := by ring
    _ = (x.mantissa + 1 / 2) * 2 ^ x.exponent * (x.scale place).2 := x.scaled_eq _ place

/-! ## The search -/

/-- What is found on a grid reads back, is not zero, and is at most the upper neighbour of the
number. -/
theorem nearest?_eq_some {place : ℤ} {candidate : ℕ} (found : x.nearest? place = some candidate) :
    x.rounds place candidate = true ∧ 0 < candidate ∧
      candidate ≤ 4 * x.mantissa * (x.scale place).1 / (x.scale place).2 + 1 := by
  rw [nearest?] at found
  dsimp only at found
  set lower := 4 * x.mantissa * (x.scale place).1 / (x.scale place).2
  split at found
  · next lowerRounds upperRounds =>
    have neighbour : candidate = lower ∨ candidate = lower + 1 := by
      split_ifs at found <;> simp_all
    rcases neighbour with rfl | rfl
    · simp only [Bool.and_eq_true, bne_iff_ne] at lowerRounds
      exact ⟨lowerRounds.1, Nat.pos_of_ne_zero lowerRounds.2, Nat.le_succ _⟩
    · exact ⟨upperRounds, Nat.succ_pos _, Nat.le_refl _⟩
  · next lowerRounds _ =>
    obtain rfl := Option.some.inj found
    simp only [Bool.and_eq_true, bne_iff_ne] at lowerRounds
    exact ⟨lowerRounds.1, Nat.pos_of_ne_zero lowerRounds.2, Nat.le_succ _⟩
  · next _ upperRounds =>
    obtain rfl := Option.some.inj found
    exact ⟨upperRounds, Nat.succ_pos _, Nat.le_refl _⟩
  · cases found

theorem nearest?_ne_none {place : ℤ} (fine : (10 : ℚ) ^ place < 2 ^ (x.exponent - 1)) :
    ∃ candidate, x.nearest? place = some candidate := by
  have positive : (0 : ℚ) < 10 ^ place := by positivity
  have unit : (2 : ℚ) ^ (x.exponent - 1) = 2 * 2 ^ (x.exponent - 2) := by
    rw [← zpow_one_add₀ (by decide)]
    congr 1
    omega
  have step : (x.scale place).2 < 2 * (x.scale place).1 := by
    have denominator : (0 : ℚ) < (x.scale place).2 := by exact_mod_cast x.scale_pos place
    have scaled : ((x.scale place).2 : ℚ) < 2 * (x.scale place).1 := by
      refine lt_of_mul_lt_mul_right ?_ positive.le
      calc ((x.scale place).2 : ℚ) * 10 ^ place < (x.scale place).2 * 2 ^ (x.exponent - 1) := by
            gcongr
        _ = 2 * (2 ^ (x.exponent - 2) * (x.scale place).2) := by
            rw [unit]
            ring
        _ = 2 * (x.scale place).1 * 10 ^ place := by
            rw [← x.scale_eq]
            ring
    exact_mod_cast scaled
  set lower := 4 * x.mantissa * (x.scale place).1 / (x.scale place).2 with lowerEq
  have below : lower * (x.scale place).2 ≤ 4 * x.mantissa * (x.scale place).1 :=
    Nat.div_mul_le_self _ _
  have above : 4 * x.mantissa * (x.scale place).1 < (lower + 1) * (x.scale place).2 :=
    Nat.lt_mul_of_div_lt (Nat.lt_succ_self lower) (x.scale_pos place)
  have high : (lower + 1) * (x.scale place).2 < (4 * x.mantissa + 2) * (x.scale place).1 := by
    rw [Nat.add_mul, Nat.add_mul, Nat.one_mul]
    omega
  have low : ∀ less,
      (4 * x.mantissa - less) * (x.scale place).1 < (lower + 1) * (x.scale place).2 :=
    fun less => (Nat.mul_le_mul_right _ (Nat.sub_le _ less)).trans_lt above
  have upperRounds : x.rounds place (lower + 1) = true := by
    rw [rounds]
    dsimp only
    split
    · simp only [Bool.and_eq_true, decide_eq_true_eq]
      exact ⟨(low _).le, high.le⟩
    · simp only [Bool.and_eq_true, decide_eq_true_eq]
      exact ⟨low _, high⟩
  rw [nearest?]
  dsimp only
  rw [← lowerEq, upperRounds]
  cases x.rounds place lower && lower != 0 with
  | true =>
    dsimp only
    split_ifs <;> exact ⟨_, rfl⟩
  | false => exact ⟨_, rfl⟩

theorem magnitude_eq_length :
    x.magnitude =
      (Nat.toDigits 10 (4 * x.mantissa * (x.scale (-400)).1 / (x.scale (-400)).2)).length -
        400 := by
  rw [magnitude]
  simp [Nat.repr]

/-- The magnitude is one more than the power of ten of the leading digit. -/
theorem magnitude_eq {leading : ℕ} (positive : 0 < leading)
    (low : 10 ^ leading ≤ 4 * x.mantissa * (x.scale (-400)).1 / (x.scale (-400)).2)
    (high : 4 * x.mantissa * (x.scale (-400)).1 / (x.scale (-400)).2 < 10 ^ (leading + 1)) :
    x.magnitude = leading + 1 - 400 := by
  have atMost := (Nat.length_toDigits_le_iff (by decide) (Nat.succ_pos leading)).2 high
  have notLess :=
    (Nat.length_toDigits_le_iff (b := 10) (by decide) positive).not.2 (Nat.not_lt.2 low)
  rw [magnitude_eq_length]
  omega

theorem value_lt_magnitude : x.value < 10 ^ x.magnitude := by
  obtain ⟨-, above⟩ := x.quotient_bounds (-400)
  have magnitude := x.magnitude_eq_length
  set quotient := 4 * x.mantissa * (x.scale (-400)).1 / (x.scale (-400)).2
  have digits : quotient + 1 ≤ 10 ^ (Nat.toDigits 10 quotient).length := by
    have nonempty : 0 < (Nat.toDigits 10 quotient).length :=
      List.length_pos_iff.2 Nat.toDigits_ne_nil
    exact (Nat.length_toDigits_le_iff (by decide) nonempty).1 (Nat.le_refl _)
  have whole : ((quotient + 1 : ℕ) : ℚ) ≤ 10 ^ (Nat.toDigits 10 quotient).length := by
    exact_mod_cast digits
  calc x.value < (quotient + 1 : ℕ) * 10 ^ (-400 : ℤ) := above
    _ ≤ 10 ^ (Nat.toDigits 10 quotient).length * 10 ^ (-400 : ℤ) := by gcongr
    _ = 10 ^ x.magnitude := by
      rw [magnitude, sub_eq_add_neg, zpow_add₀ (by decide), zpow_natCast]

/-- A candidate has at most as many digits as the grid leaves room for, or is the next power of
ten. -/
theorem nearest?_le {digits candidate : ℕ}
    (found : x.nearest? (x.magnitude - digits) = some candidate) : candidate ≤ 10 ^ digits := by
  obtain ⟨below, -⟩ := x.quotient_bounds (x.magnitude - digits)
  refine (x.nearest?_eq_some found).2.2.trans (Nat.succ_le_of_lt ?_)
  set quotient := 4 * x.mantissa * (x.scale (x.magnitude - digits)).1 /
    (x.scale (x.magnitude - digits)).2
  have unit : (0 : ℚ) < 10 ^ (x.magnitude - digits) := by positivity
  have room : (quotient : ℚ) < 10 ^ digits := by
    refine lt_of_mul_lt_mul_right ?_ unit.le
    calc (quotient : ℚ) * 10 ^ (x.magnitude - digits) ≤ x.value := below
      _ < 10 ^ x.magnitude := x.value_lt_magnitude
      _ = 10 ^ digits * 10 ^ (x.magnitude - digits) := by
        rw [← zpow_natCast, ← zpow_add₀ (by decide), add_sub_cancel]
  exact_mod_cast room

theorem search_bounds (fuel digits : ℕ) :
    (x.search x.magnitude fuel digits).digits ≤ 10 ^ (digits + fuel - 1) ∧
      (x.search x.magnitude fuel digits).value ≤ (x.mantissa + 1 / 2) * 2 ^ x.exponent := by
  induction fuel generalizing digits with
  | zero =>
    rw [search]
    refine ⟨Nat.zero_le _, ?_⟩
    rw [Decimal.value, Nat.cast_zero, zero_mul]
    positivity
  | succ fuel ih =>
    rw [search]
    cases found : x.nearest? (x.magnitude - digits) with
    | some candidate =>
      refine ⟨(x.nearest?_le found).trans (Nat.pow_le_pow_right (by decide) (by omega)), ?_⟩
      exact x.le_of_rounds (x.nearest?_eq_some found).1
    | none =>
      rw [show digits + (fuel + 1) - 1 = digits + 1 + fuel - 1 by omega]
      exact ih (digits + 1)

theorem magnitude_le_value (least : (10 : ℚ) ^ (-400 : ℤ) ≤ x.value) :
    (10 : ℚ) ^ (x.magnitude - 1) ≤ x.value := by
  obtain ⟨below, above⟩ := x.quotient_bounds (-400)
  have magnitude := x.magnitude_eq_length
  set quotient := 4 * x.mantissa * (x.scale (-400)).1 / (x.scale (-400)).2
  have unit : (0 : ℚ) < 10 ^ (-400 : ℤ) := by positivity
  have nonzero : 0 < quotient := by
    have one : (1 : ℚ) < (quotient + 1 : ℕ) := by
      refine lt_of_mul_lt_mul_right ?_ unit.le
      rw [one_mul]
      exact least.trans_lt above
    have whole : 1 < quotient + 1 := by exact_mod_cast one
    omega
  have leading : 10 ^ ((Nat.toDigits 10 quotient).length - 1) ≤ quotient := by
    rcases Nat.eq_zero_or_pos ((Nat.toDigits 10 quotient).length - 1) with single | several
    · rw [single]
      exact nonzero
    · refine Nat.not_lt.1 fun less => ?_
      have short := (Nat.length_toDigits_le_iff (by decide) several).2 less
      omega
  have nonempty : 0 < (Nat.toDigits 10 quotient).length := List.length_pos_iff.2 Nat.toDigits_ne_nil
  have whole : (10 : ℚ) ^ ((Nat.toDigits 10 quotient).length - 1) ≤ quotient := by
    exact_mod_cast leading
  calc (10 : ℚ) ^ (x.magnitude - 1)
      = 10 ^ ((Nat.toDigits 10 quotient).length - 1) * 10 ^ (-400 : ℤ) := by
        rw [← zpow_natCast, ← zpow_add₀ (by decide)]
        congr 1
        omega
    _ ≤ quotient * 10 ^ (-400 : ℤ) := by gcongr
    _ ≤ x.value := below

theorem search_pos {fuel digits : ℕ} (last : ∃ candidate,
    x.nearest? (x.magnitude - (digits + fuel : ℕ)) = some candidate) :
    0 < (x.search x.magnitude (fuel + 1) digits).digits := by
  induction fuel generalizing digits with
  | zero =>
    obtain ⟨candidate, found⟩ := last
    rw [Nat.add_zero] at found
    rw [search, found]
    exact (x.nearest?_eq_some found).2.1
  | succ fuel ih =>
    rw [search]
    cases found : x.nearest? (x.magnitude - digits) with
    | some candidate => exact (x.nearest?_eq_some found).2.1
    | none =>
      rw [show digits + (fuel + 1) = digits + 1 + fuel by omega] at last
      exact ih last

/-- The shortest decimal of a number that is not too small has a digit other than zero. -/
theorem shortest_pos (least : (10 : ℚ) ^ (-400 : ℤ) ≤ x.value) (mantissa : x.mantissa < 2 ^ 53) :
    0 < x.shortest.digits := by
  refine x.search_pos (x.nearest?_ne_none ?_)
  have size : (x.mantissa : ℚ) < 2 ^ 53 := by exact_mod_cast mantissa
  have unit : (0 : ℚ) < 2 ^ x.exponent := by positivity
  calc (10 : ℚ) ^ (x.magnitude - (1 + 17 : ℕ)) = 10 ^ (x.magnitude - 1) * 10 ^ (-17 : ℤ) := by
        rw [← zpow_add₀ (by decide)]
        congr 1
        omega
    _ ≤ x.mantissa * 2 ^ x.exponent * 10 ^ (-17 : ℤ) := by
        gcongr
        exact x.magnitude_le_value least
    _ = x.mantissa * 10 ^ (-17 : ℤ) * 2 ^ x.exponent := by ring
    _ < 2 ^ (-1 : ℤ) * 2 ^ x.exponent := by
        refine mul_lt_mul_of_pos_right ?_ unit
        norm_num
        linarith
    _ = 2 ^ (x.exponent - 1) := by
        rw [← zpow_add₀ (by decide)]
        congr 1
        omega

/-- The shortest decimal without zeros at its end exceeds the number by at most half a unit. Its
digits are at most a one with eighteen zeros. -/
theorem trimZeros_shortest_bounds (fuel : ℕ) :
    (x.shortest.trimZeros fuel).digits ≤ 10 ^ 18 ∧
      (x.shortest.trimZeros fuel).value ≤ (x.mantissa + 1 / 2) * 2 ^ x.exponent := by
  obtain ⟨digits, value⟩ := x.search_bounds 18 1
  refine ⟨(Decimal.digits_trimZeros_le fuel _).trans digits, ?_⟩
  rw [Decimal.value_trimZeros]
  exact value

end Binary

end Blockwright
