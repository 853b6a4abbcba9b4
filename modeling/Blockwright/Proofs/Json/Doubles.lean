import Blockwright.Proofs.Json.Scaling

/-!
# Reading doubles back

The written form of a finite double is a number, and the number is in the range of doubles.
-/

namespace Blockwright

namespace Json

namespace Token

/-! ## Scanning the parts of a number -/

variable {negative : Bool} {whole fraction rest : List Char}

/-- Whether a list of characters consists of digits. -/
def AllDigits (cs : List Char) : Prop := ∀ c ∈ cs, c.isDigit = true

/-- Whether no digit follows. -/
def Stops (rest : List Char) : Prop := ∀ c ∈ rest.head?, c.isDigit = false

theorem stops_nil : Stops [] := by
  simp [Stops]

theorem takeWhile_digits {digits : List Char} (all : AllDigits digits) (stops : Stops rest) :
    (digits ++ rest).takeWhile Char.isDigit = digits ∧
      (digits ++ rest).dropWhile Char.isDigit = rest := by
  rw [List.takeWhile_append_of_pos all, List.dropWhile_append_of_pos all]
  cases rest with
  | nil => simp
  | cons c rest =>
    have nonDigit : c.isDigit = false := stops c rfl
    simp [nonDigit]

theorem scanNumber_whole {first : Char} {others : List Char} (all : AllDigits others)
    (stops : Stops rest) (leading : first = '0' → others = []) :
    scanNumber negative first (others ++ rest) = scanFraction negative (first :: others) rest := by
  obtain ⟨taken, left⟩ := takeWhile_digits all stops
  have noZero : ¬(first == '0' && !others.isEmpty) = true := by
    intro zero
    simp only [Bool.and_eq_true, beq_iff_eq, Bool.not_eq_true', List.isEmpty_eq_false_iff] at zero
    exact zero.2 (leading zero.1)
  rw [scanNumber, taken, left]
  exact if_neg noZero

theorem scanFraction_point (all : AllDigits fraction) (stops : Stops rest)
    (nonempty : fraction ≠ []) :
    scanFraction negative whole ('.' :: (fraction ++ rest)) =
      scanPower negative whole fraction rest := by
  obtain ⟨taken, left⟩ := takeWhile_digits all stops
  rw [scanFraction, taken, left]
  exact if_neg (by simpa using nonempty)

theorem digitsValue_eq (digits : List Char) :
    digitsValue digits = Nat.ofDigitChars 10 digits 0 := by
  rw [digitsValue, Nat.ofDigitChars_eq_foldl]
  congr 1
  funext value digit
  rw [Nat.mul_comm]
  rfl

theorem allDigits_toDigits (number : Nat) : AllDigits (Nat.toDigits 10 number) :=
  fun _ isDigit => isDigit_of_mem_toDigits isDigit

theorem scanPower_power (power : Int) :
    scanPower negative whole fraction
        ('e' :: (if power < 0 then '-' else '+') :: (toString power.natAbs).toList) =
      (.number (numberValue negative whole fraction (some power)), []) := by
  have written : (toString power.natAbs).toList = Nat.toDigits 10 power.natAbs := by simp
  obtain ⟨taken, left⟩ := all_takeWhile (allDigits_toDigits power.natAbs)
  have nonempty : (Nat.toDigits 10 power.natAbs).isEmpty = false := by simp
  have value : digitsValue (Nat.toDigits 10 power.natAbs) = power.natAbs := by
    rw [digitsValue_eq, Nat.ofDigitChars_ten_toDigits]
  rw [written]
  by_cases isNegative : power < 0
  · have back : -|power| = power := by rw [abs_of_neg isNegative, neg_neg]
    simp [scanPower, dropSign, hasMinus, isNegative, taken, left, value, back]
  · have back : |power| = power := abs_of_nonneg (Int.not_lt.1 isNegative)
    simp [scanPower, dropSign, hasMinus, isNegative, taken, left, value, back]

theorem numberValue_eq {power : Option Int} (real : fraction ≠ [] ∨ power.isSome = true)
    (fits : Nat.ofDigitChars 10 (whole ++ fraction) 0 ≤ significandLimit) :
    numberValue negative whole fraction power =
      realNumber negative (Nat.ofDigitChars 10 (whole ++ fraction) 0)
        (power.getD 0 - fraction.length) := by
  rw [Nat.ofDigitChars_append] at fits ⊢
  have wholeFits : Nat.ofDigitChars 10 whole 0 ≤ significandLimit :=
    Nat.le_trans (le_ofDigitChars fraction _) fits
  have notInteger : ¬(fraction.isEmpty && power.isNone && ([] : List Char).isEmpty) = true := by
    rcases real with nonempty | isPower
    · simp [nonempty]
    · cases power with
      | none => cases isPower
      | some power => simp
  have places : Int.ofNat ([] : List Char).length -
      Int.ofNat (fraction.length - ([] : List Char).length) + power.getD 0 =
        power.getD 0 - fraction.length := by
    simp only [List.length_nil, Nat.sub_zero, Int.ofNat_eq_natCast]
    omega
  rw [numberValue, accumulate_eq wholeFits]
  dsimp only
  rw [if_neg notInteger, accumulate_eq fits]
  dsimp only
  rw [places]

/-! ## Written forms -/

/-- Whether characters are scanned as a number in the range of doubles. -/
def Reads (negative : Bool) (body : List Char) : Prop :=
  ∃ first rest value, body = first :: rest ∧ first.isDigit = true ∧
    scanNumber negative first rest = (.number (some value), [])

theorem reads_of_point {tail : List Char} {power : Option Int} {value : Number}
    (wholeDigits : AllDigits whole) (wholeNonempty : whole ≠ [])
    (leading : ∀ others, whole = '0' :: others → others = []) (fractionDigits : AllDigits fraction)
    (fractionNonempty : fraction ≠ []) (stops : Stops tail)
    (scanned : scanPower negative whole fraction tail =
      (.number (numberValue negative whole fraction power), []))
    (fits : Nat.ofDigitChars 10 (whole ++ fraction) 0 ≤ significandLimit)
    (inRange : realNumber negative (Nat.ofDigitChars 10 (whole ++ fraction) 0)
      (power.getD 0 - fraction.length) = some value) :
    Reads negative (whole ++ '.' :: (fraction ++ tail)) := by
  obtain ⟨first, others, rfl⟩ := List.exists_cons_of_ne_nil wholeNonempty
  obtain ⟨firstDigit, othersDigits⟩ := List.forall_mem_cons.1 wholeDigits
  refine ⟨first, others ++ '.' :: (fraction ++ tail), value, rfl, firstDigit, ?_⟩
  have point : Stops ('.' :: (fraction ++ tail)) := by
    intro c isFirst
    obtain rfl : '.' = c := by simpa using isFirst
    decide
  rw [scanNumber_whole othersDigits point (fun zero => leading others (by rw [zero])),
    scanFraction_point fractionDigits stops fractionNonempty, scanned,
    numberValue_eq (.inl fractionNonempty) fits, inRange]

theorem realNumber_of_scale (negative : Bool) {significand : Nat} {exponent : Int} {result : Float}
    (inRange : scale 4 (UInt64.ofNat significand).toFloat exponent = some result) :
    ∃ value, realNumber negative significand exponent = some value :=
  ⟨_, by rw [realNumber, inRange]; rfl⟩

theorem realNumber_of_neg (significand : Nat) {exponent : Int} (isNegative : exponent < 0) :
    ∃ value, realNumber negative significand exponent = some value := by
  obtain ⟨result, found⟩ := scale_of_neg 4 (UInt64.ofNat significand).toFloat isNegative
  exact realNumber_of_scale negative found

theorem allDigits_append {first second : List Char} (firstDigits : AllDigits first)
    (secondDigits : AllDigits second) : AllDigits (first ++ second) := by
  intro c isCharacter
  rcases List.mem_append.1 isCharacter with inFirst | inSecond
  · exact firstDigits c inFirst
  · exact secondDigits c inSecond

theorem allDigits_zeros (count : Nat) : AllDigits (List.replicate count '0') := by
  intro c isZero
  rw [List.eq_of_mem_replicate isZero]
  decide

theorem not_leading_zero {number : Nat} (positive : 0 < number) (others : List Char) :
    Nat.toDigits 10 number ≠ '0' :: others := by
  intro written
  have value := @Nat.ofDigitChars_ten_toDigits number
  obtain rfl := toDigits_leading_zero written
  have zero : Nat.ofDigitChars 10 ['0'] 0 = 0 := rfl
  rw [written] at value
  omega

theorem reads_decimal (wholeDigits : AllDigits whole) (wholeNonempty : whole ≠ [])
    (leading : ∀ others, whole = '0' :: others → others = []) (fractionDigits : AllDigits fraction)
    (fractionNonempty : fraction ≠ [])
    (fits : Nat.ofDigitChars 10 (whole ++ fraction) 0 ≤ significandLimit) :
    Reads negative (whole ++ '.' :: fraction) := by
  have places : (0 : Int) - fraction.length < 0 := by
    have length := List.length_pos_iff.2 fractionNonempty
    omega
  obtain ⟨value, inRange⟩ := @realNumber_of_neg negative
    (Nat.ofDigitChars 10 (whole ++ fraction) 0) _ places
  have reads := reads_of_point wholeDigits wholeNonempty leading fractionDigits fractionNonempty
    stops_nil rfl fits inRange
  rwa [List.append_nil] at reads

/-! ## Positional forms -/

section Positional

variable {number : Nat}

theorem reads_whole (positive : 0 < number) {zeros : Nat}
    (short : (Nat.toDigits 10 number).length + zeros ≤ 16) :
    Reads negative (Nat.toDigits 10 number ++ List.replicate zeros '0' ++ ['.', '0']) := by
  have digits := allDigits_append (allDigits_toDigits number) (allDigits_zeros zeros)
  refine reads_decimal digits (by simp) ?_ (allDigits_zeros 1) (by simp) ?_
  · intro others written
    have nonempty : Nat.toDigits 10 number ≠ [] := Nat.toDigits_ne_nil
    obtain ⟨first, rest, form⟩ := List.exists_cons_of_ne_nil nonempty
    rw [form, List.cons_append] at written
    exact absurd (form.trans (by rw [(List.cons.inj written).1])) (not_leading_zero positive rest)
  · have length : (Nat.toDigits 10 number ++ List.replicate zeros '0' ++ ['0']).length ≤ 17 := by
      simp only [List.length_append, List.length_replicate, List.length_singleton]
      omega
    have below := (ofDigitChars_lt (allDigits_append digits (allDigits_zeros 1))).le.trans
      (Nat.pow_le_pow_right (by decide) length)
    exact below.trans (by decide)

theorem reads_inside (positive : 0 < number) (fits : number ≤ significandLimit) {count : Nat}
    (some : count ≠ 0) (fewer : count < (Nat.toDigits 10 number).length) :
    Reads negative
      ((Nat.toDigits 10 number).take count ++ '.' :: (Nat.toDigits 10 number).drop count) := by
  have digits := allDigits_toDigits number
  have split := List.take_append_drop count (Nat.toDigits 10 number)
  refine reads_decimal (fun c isDigit => digits c (List.mem_of_mem_take isDigit)) ?_ ?_
    (fun c isDigit => digits c (List.mem_of_mem_drop isDigit)) ?_ ?_
  · rw [ne_eq, List.take_eq_nil_iff]
    rintro (zero | empty)
    · exact some zero
    · exact Nat.toDigits_ne_nil empty
  · intro others written
    rw [written, List.cons_append] at split
    exact absurd split.symm (not_leading_zero positive _)
  · rw [ne_eq, List.drop_eq_nil_iff]
    omega
  · rwa [split, Nat.ofDigitChars_ten_toDigits]

theorem reads_behind (fits : number ≤ significandLimit) (zeros : Nat) :
    Reads negative (['0'] ++ '.' :: (List.replicate zeros '0' ++ Nat.toDigits 10 number)) := by
  refine reads_decimal (allDigits_zeros 1) (by simp) (by simp)
    (allDigits_append (allDigits_zeros _) (allDigits_toDigits number)) (by simp) ?_
  rwa [Nat.ofDigitChars_append, Nat.ofDigitChars_append, Nat.ofDigitChars_replicate_zero,
    show Nat.ofDigitChars 10 ['0'] 0 = 0 from rfl, Nat.mul_zero, Nat.ofDigitChars_ten_toDigits]

theorem reads_positional (positive : 0 < number) (small : number ≤ 10 ^ 18) {point : Int}
    (short : point ≤ 16) :
    Reads negative (Decimal.positional (Nat.toDigits 10 number) point ['.', '0']) := by
  have fits : number ≤ significandLimit := small.trans (by decide)
  rw [Decimal.positional]
  split
  · exact reads_whole positive (by omega)
  · split
    · exact reads_inside positive fits (by omega) (by omega)
    · exact reads_behind fits _

end Positional

theorem stops_power (tail : List Char) : Stops ('e' :: tail) := by
  intro c isFirst
  obtain rfl : 'e' = c := by simpa using isFirst
  decide

theorem reads_digit {digit : Char} (isDigit : digit.isDigit = true) (power : Int) {value : Number}
    (fits : Nat.ofDigitChars 10 [digit] 0 ≤ significandLimit)
    (inRange : realNumber negative (Nat.ofDigitChars 10 [digit] 0) power = some value) :
    Reads negative
      (digit :: 'e' :: (if power < 0 then '-' else '+') :: (toString power.natAbs).toList) := by
  refine ⟨digit, _, value, rfl, isDigit, ?_⟩
  generalize written : (if power < 0 then '-' else '+') :: (toString power.natAbs).toList = tail
  have scanned : scanNumber negative digit ([] ++ 'e' :: tail) =
      scanFraction negative [digit] ('e' :: tail) :=
    scanNumber_whole (by simp [AllDigits]) (stops_power tail) fun _ => rfl
  have noPoint : scanFraction negative [digit] ('e' :: tail) =
      scanPower negative [digit] [] ('e' :: tail) := rfl
  have total : numberValue negative [digit] [] (some power) =
      realNumber negative (Nat.ofDigitChars 10 [digit] 0) power := by
    rw [numberValue_eq (.inr rfl) fits]
    simp
  rw [← List.nil_append ('e' :: tail), scanned, noPoint, ← written, scanPower_power, total, inRange]

theorem reads_scientific {number : Nat} (fits : number ≤ significandLimit) {point : Int}
    {value : Number}
    (inRange : realNumber negative number (point - (Nat.toDigits 10 number).length) = some value) :
    Reads negative (Decimal.scientific (Nat.toDigits 10 number) point) := by
  have digits := allDigits_toDigits number
  have total := @Nat.ofDigitChars_ten_toDigits number
  have nonempty : Nat.toDigits 10 number ≠ [] := Nat.toDigits_ne_nil
  generalize Nat.toDigits 10 number = ds at *
  rw [← total] at fits inRange
  match ds with
  | [] => exact absurd rfl nonempty
  | [first] =>
    obtain ⟨firstDigit, -⟩ := List.forall_mem_cons.1 digits
    exact reads_digit firstDigit (point - 1) fits inRange
  | first :: second :: rest =>
    obtain ⟨firstDigit, otherDigits⟩ := List.forall_mem_cons.1 digits
    have places : point - (first :: second :: rest).length =
        (some (point - 1)).getD 0 - (second :: rest).length := by
      simp only [List.length_cons, Option.getD_some]
      omega
    rw [places] at inRange
    exact reads_of_point (by simpa [AllDigits] using firstDigit) (by simp)
      (fun others form => (List.cons.inj form).2.symm) otherDigits (by simp) (stops_power _)
      (scanPower_power (point - 1)) fits inRange

end Token

namespace Number

open Token

theorem least_double : (10 : ℚ) ^ (-400 : ℤ) ≤ 2 ^ (-1074 : ℤ) := by
  have whole : 2 ^ 1074 ≤ 10 ^ 400 := by decide +kernel
  rw [zpow_neg, zpow_neg]
  exact inv_anti₀ (by positivity) (by exact_mod_cast whole)

/-- The digits and the power of ten of a finite double other than zero are read in the range of
doubles. -/
theorem shortest_inRange {double : Float} (finite : double.isFinite = true)
    (nonzero : (double == 0.0) = false) :
    0 < ((Binary.ofDouble double).shortest.trimZeros 20).digits ∧
      ∃ result, scale 4
        (UInt64.ofNat ((Binary.ofDouble double).shortest.trimZeros 20).digits).toFloat
        ((Binary.ofDouble double).shortest.trimZeros 20).exponent = some result := by
  obtain ⟨mantissa, low, high, narrow⟩ := Binary.ofDouble_bounds finite
  have least : (10 : ℚ) ^ (-400 : ℤ) ≤ (Binary.ofDouble double).value := by
    have one : (1 : ℚ) ≤ (Binary.ofDouble double).mantissa := by
      exact_mod_cast Binary.mantissa_ofDouble_pos nonzero
    calc (10 : ℚ) ^ (-400 : ℤ) ≤ 2 ^ (-1074 : ℤ) := least_double
      _ ≤ 2 ^ (Binary.ofDouble double).exponent := zpow_le_zpow_right₀ (by decide) low
      _ ≤ (Binary.ofDouble double).mantissa * 2 ^ (Binary.ofDouble double).exponent :=
        le_mul_of_one_le_left (by positivity) one
  have positive := Decimal.digits_trimZeros_pos (Binary.shortest_pos _ least mantissa) 20
  exact ⟨positive, scale_shortest mantissa high narrow positive⟩

/-- The written form of a finite double is read as a number. -/
theorem readsAs_of_isFinite {value : Float} (finite : value.isFinite = true) :
    ∃ read, (Number.real value).ReadsAs read := by
  -- The sign is written before the digits and taken off before they are scanned.
  suffices body : ∃ negative body, Reads negative body ∧
      realChars value = (if negative then ['-'] else []) ++ body by
    obtain ⟨negative, _, ⟨first, rest, read, rfl, digit, scanned⟩, written⟩ := body
    exact ⟨read, negative, first, rest, digit, written, scanned⟩
  rw [realChars]
  by_cases zero : (value == 0.0) = true
  · rw [if_pos zero]
    exact ⟨_, ['0', '.', '0'], ⟨'0', ['.', '0'], _, rfl, by decide, rfl⟩, rfl⟩
  · rw [if_neg zero]
    obtain ⟨positive, result, inRange⟩ := shortest_inRange finite (Bool.eq_false_iff.2 zero)
    obtain ⟨small, -⟩ := (Binary.ofDouble value).trimZeros_shortest_bounds 20
    have limit : 10 ^ 18 ≤ significandLimit := by decide
    have digits : ∀ number : Nat, (toString number).toList = Nat.toDigits 10 number := by simp
    refine ⟨_, _, ?_, rfl⟩
    simp only [digits]
    generalize (Binary.ofDouble value).shortest.trimZeros 20 = decimal at *
    split
    · next positional =>
      simp only [Bool.and_eq_true, decide_eq_true_eq] at positional
      exact reads_positional positive small positional.2
    · obtain ⟨read, isRead⟩ := realNumber_of_scale (value.toBits >>> 63 == 1) inRange
      rw [← add_sub_cancel_left ((Nat.toDigits 10 decimal.digits).length : Int) decimal.exponent]
        at isRead
      exact reads_scientific (small.trans limit) isRead

end Number

end Json

end Blockwright
