import Mathlib
import Blockwright.Json.Printer
import Blockwright.Json.Token

/-!
# Reading numbers back

The written form of a number is scanned up to its end, whatever follows that cannot belong to a
number. Integers of 64 bits are read back as they are.
-/

namespace Blockwright

namespace Json

namespace Token

/-! ## Digits -/

/-- Whether what follows a number cannot belong to it. -/
def Delimits (rest : List Char) : Prop :=
  ∀ c ∈ rest.head?, c.isDigit = false ∧ c ≠ '.' ∧ c ≠ 'e' ∧ c ≠ 'E'

theorem delimits_nil : Delimits [] := by
  simp [Delimits]

theorem delimits_cons {c : Char} {rest : List Char} (digit : c.isDigit = false) (point : c ≠ '.')
    (lower : c ≠ 'e') (upper : c ≠ 'E') : Delimits (c :: rest) := by
  intro first isFirst
  obtain rfl : c = first := by simpa using isFirst
  exact ⟨digit, point, lower, upper⟩

theorem takeWhile_isDigit_append {rest : List Char} (delimits : Delimits rest) (cs : List Char) :
    (cs ++ rest).takeWhile Char.isDigit = cs.takeWhile Char.isDigit ∧
      (cs ++ rest).dropWhile Char.isDigit = cs.dropWhile Char.isDigit ++ rest := by
  induction cs with
  | nil =>
    cases rest with
    | nil => simp
    | cons c rest =>
      have digit := (delimits c rfl).1
      simp [digit]
  | cons c cs ih =>
    by_cases digit : c.isDigit
    · simp [digit, ih.1, ih.2]
    · simp [digit]

/-! ## Scanning up to the end -/

variable {negative : Bool} {whole fraction cs rest : List Char} {value : Option Number}

theorem scanPower_append (delimits : Delimits rest)
    (scanned : scanPower negative whole fraction cs = (.number value, [])) :
    scanPower negative whole fraction (cs ++ rest) = (.number value, rest) := by
  cases cs with
  | nil =>
    rw [scanPower] at scanned
    cases rest with
    | nil => exact scanned
    | cons c rest =>
      obtain ⟨-, -, lower, upper⟩ := delimits c rfl
      cases scanned
      simp [scanPower, lower, upper]
  | cons c after =>
    rw [scanPower] at scanned
    by_cases isPower : (c == 'e' || c == 'E') = true
    · rw [if_pos isPower] at scanned
      dsimp only at scanned
      by_cases noDigits : ((dropSign after).takeWhile Char.isDigit).isEmpty = true
      · simp [noDigits, unfinishedNumber] at scanned
      · obtain ⟨first, others, rfl⟩ : ∃ first others, after = first :: others := by
          cases after with
          | nil => simp [dropSign, hasMinus] at noDigits
          | cons first others => exact ⟨first, others, rfl⟩
        have sign : dropSign (first :: others ++ rest) = dropSign (first :: others) ++ rest := by
          simp only [dropSign, hasMinus, List.cons_append, List.head?_cons, List.drop_succ_cons,
            List.drop_zero]
          split <;> rfl
        have minus : hasMinus (first :: others ++ rest) = hasMinus (first :: others) := rfl
        obtain ⟨digits, behind⟩ :=
          takeWhile_isDigit_append delimits (dropSign (first :: others))
        rw [if_neg noDigits, Prod.mk.injEq] at scanned
        rw [List.cons_append, scanPower, if_pos isPower, sign, minus, digits, behind]
        dsimp only
        rw [if_neg noDigits, Prod.mk.injEq, scanned.2, List.nil_append]
        exact ⟨scanned.1, rfl⟩
    · simp [isPower] at scanned

theorem scanFraction_append (delimits : Delimits rest)
    (scanned : scanFraction negative whole cs = (.number value, [])) :
    scanFraction negative whole (cs ++ rest) = (.number value, rest) := by
  cases cs with
  | nil =>
    have noPoint : ∀ after, rest ≠ '.' :: after := by
      rintro after rfl
      exact (delimits '.' rfl).2.1 rfl
    have powerScanned : scanPower negative whole [] [] = (.number value, []) := by
      simpa [scanFraction] using scanned
    rw [List.nil_append, scanFraction]
    · exact scanPower_append delimits powerScanned
    · exact noPoint
  | cons c after =>
    by_cases point : c = '.'
    · subst point
      obtain ⟨digits, behind⟩ := takeWhile_isDigit_append delimits after
      rw [scanFraction] at scanned
      rw [List.cons_append, scanFraction, digits, behind]
      split at scanned
      · simp [unfinishedNumber] at scanned
      · next someDigits =>
        rw [if_neg someDigits]
        exact scanPower_append delimits scanned
    · have noPoint : ∀ others, c :: after ≠ '.' :: others := by
        rintro others same
        exact point (List.cons.inj same).1
      have noPointBefore : ∀ others, c :: (after ++ rest) ≠ '.' :: others := by
        rintro others same
        exact point (List.cons.inj same).1
      rw [scanFraction] at scanned
      · rw [List.cons_append, scanFraction]
        · exact scanPower_append delimits scanned
        · exact noPointBefore
      · exact noPoint

theorem scanNumber_append {first : Char} (delimits : Delimits rest)
    (scanned : scanNumber negative first cs = (.number value, [])) :
    scanNumber negative first (cs ++ rest) = (.number value, rest) := by
  obtain ⟨digits, behind⟩ := takeWhile_isDigit_append delimits cs
  rw [scanNumber] at scanned ⊢
  rw [digits, behind]
  split at scanned
  · simp at scanned
  · next noZero =>
    rw [if_neg noZero]
    exact scanFraction_append delimits scanned

theorem scan_digit {first : Char} (digit : first.isDigit = true) :
    scan first cs = scanNumber false first cs ∧
      scan '-' (first :: cs) = scanNumber true first cs := by
  constructor
  · rw [scan.eq_def]
    split <;> first
      | (rw [if_pos digit])
      | exact absurd digit (by decide)
  · simp [scan, scanNegative, digit]

theorem isSpace_digit {first : Char} (digit : first.isDigit = true) : isSpace first = false := by
  rw [Bool.eq_false_iff]
  intro space
  simp only [isSpace, Bool.or_eq_true, beq_iff_eq] at space
  rcases space with ((rfl | rfl) | rfl) | rfl <;> exact absurd digit (by decide)

theorem list_number {first : Char} (digit : first.isDigit = true) (delimits : Delimits rest)
    (scanned : scanNumber negative first cs = (.number value, [])) :
    list ((if negative then ['-'] else []) ++ first :: cs ++ rest) =
      .number value :: list rest := by
  have appended := scanNumber_append delimits scanned
  cases negative with
  | false =>
    rw [if_neg (by decide), List.nil_append, List.cons_append, list,
      if_neg (by simp [isSpace_digit digit]), (scan_digit digit).1, appended]
    simp [isBroken]
  | true =>
    rw [if_pos rfl, List.append_assoc, List.cons_append, List.cons_append, List.nil_append, list,
      if_neg (by decide), (scan_digit digit).2, appended]
    simp [isBroken]

/-! ## Integers -/

theorem all_takeWhile {test : Char → Bool} {cs : List Char} (all : ∀ c ∈ cs, test c = true) :
    cs.takeWhile test = cs ∧ cs.dropWhile test = [] := by
  induction cs with
  | nil => simp
  | cons c cs ih =>
    obtain ⟨first, others⟩ := List.forall_mem_cons.1 all
    simp [first, ih others]

theorem le_ofDigitChars (digits : List Char) (start : Nat) :
    start ≤ Nat.ofDigitChars 10 digits start := by
  rw [Nat.ofDigitChars_eq_ofDigitChars_zero]
  have positive : 0 < 10 ^ digits.length := Nat.pow_pos (by decide)
  exact Nat.le_add_right_of_le (Nat.le_mul_of_pos_left start positive)

/-- Digits that fit a significand are all taken. -/
theorem accumulate_eq {digits : List Char} {start : Nat}
    (fits : Nat.ofDigitChars 10 digits start ≤ significandLimit) :
    accumulate start digits = (Nat.ofDigitChars 10 digits start, []) := by
  induction digits generalizing start with
  | nil => rfl
  | cons digit digits ih =>
    have next : start * 10 + (digit.toNat - 48) = 10 * start + (digit.toNat - '0'.toNat) := by
      rw [Nat.mul_comm]
      rfl
    rw [Nat.ofDigitChars_cons] at fits ⊢
    rw [accumulate, next, if_pos (Nat.le_trans (le_ofDigitChars digits _) fits), ih fits]

theorem toNat_digit {c : Char} (digit : c.isDigit = true) : c.toNat - '0'.toNat < 10 := by
  simp only [Char.isDigit, Bool.and_eq_true, decide_eq_true_eq] at digit
  have above : c.toNat ≤ 57 := digit.2
  have zero : '0'.toNat = 48 := rfl
  omega

theorem ofDigitChars_lt {digits : List Char} (all : ∀ c ∈ digits, c.isDigit = true) :
    Nat.ofDigitChars 10 digits 0 < 10 ^ digits.length := by
  induction digits with
  | nil => simp
  | cons digit digits ih =>
    obtain ⟨first, others⟩ := List.forall_mem_cons.1 all
    have rest := ih others
    have size := toNat_digit first
    rw [Nat.ofDigitChars_cons, Nat.ofDigitChars_eq_ofDigitChars_zero, List.length_cons,
      Nat.pow_succ]
    have leading : 10 ^ digits.length * (10 * 0 + (digit.toNat - '0'.toNat)) ≤
        10 ^ digits.length * 9 := Nat.mul_le_mul_left _ (by omega)
    omega

theorem isDigit_of_mem_toDigits {number : Nat} {c : Char} (isDigit : c ∈ Nat.toDigits 10 number) :
    c.isDigit = true :=
  Nat.isDigit_of_mem_toDigits (by decide) (by decide) isDigit

/-- Only zero is written with a leading zero. -/
theorem toDigits_leading_zero {number : Nat} {digits : List Char}
    (written : Nat.toDigits 10 number = '0' :: digits) : digits = [] := by
  rcases Nat.eq_zero_or_pos digits.length with empty | positive
  · exact List.length_eq_zero_iff.1 empty
  have all : ∀ c ∈ digits, c.isDigit = true := fun c isDigit =>
    isDigit_of_mem_toDigits (written ▸ List.mem_cons_of_mem _ isDigit)
  have value := @Nat.ofDigitChars_ten_toDigits number
  rw [written, Nat.ofDigitChars_cons] at value
  have small : number < 10 ^ digits.length := by
    rw [← value]
    exact ofDigitChars_lt all
  have short := (Nat.length_toDigits_le_iff (by decide) positive).2 small
  rw [written, List.length_cons] at short
  omega

end Token

namespace Number

/-- Whether a number is read from the written form of another. -/
def ReadsAs (number read : Number) : Prop :=
  ∃ negative first digits, first.isDigit = true ∧
    numberChars number = (if negative then ['-'] else []) ++ first :: digits ∧
    Token.scanNumber negative first digits = (.number (some read), [])

/-- Whether a number is an integer of 64 bits. -/
def IsExact : Number → Prop
  | .integer value => -0x8000000000000000 ≤ value ∧ value ≤ Token.significandLimit
  | .real _ => False

theorem ReadsAs.list_numberChars {number read : Number} (reads : number.ReadsAs read)
    {rest : List Char} (delimits : Token.Delimits rest) :
    Token.list (numberChars number ++ rest) = .number (some read) :: Token.list rest := by
  obtain ⟨negative, first, digits, digit, written, scanned⟩ := reads
  rw [written]
  exact Token.list_number digit delimits scanned

/-- An integer of 64 bits is read back as it is. -/
theorem IsExact.readsAs {number : Number} (exact : number.IsExact) : number.ReadsAs number := by
  cases number with
  | real value => exact exact.elim
  | integer value =>
    obtain ⟨low, high⟩ := exact
    obtain ⟨first, digits, written⟩ : ∃ first digits,
        Nat.toDigits 10 value.natAbs = first :: digits :=
      List.exists_cons_of_ne_nil Nat.toDigits_ne_nil
    have all : ∀ c ∈ first :: digits, c.isDigit = true := fun c isDigit =>
      Token.isDigit_of_mem_toDigits (written ▸ isDigit)
    obtain ⟨firstDigit, otherDigits⟩ := List.forall_mem_cons.1 all
    obtain ⟨taken, left⟩ := Token.all_takeWhile otherDigits
    have noLeadingZero : ¬ (first == '0' && !digits.isEmpty) = true := by
      intro leading
      simp only [Bool.and_eq_true, beq_iff_eq, Bool.not_eq_true', List.isEmpty_eq_false_iff]
        at leading
      obtain ⟨rfl, nonempty⟩ := leading
      exact nonempty (Token.toDigits_leading_zero written)
    have accumulated : Token.accumulate 0 (first :: digits) = (value.natAbs, []) := by
      have total := @Nat.ofDigitChars_ten_toDigits value.natAbs
      rw [written] at total
      rw [Token.accumulate_eq, total]
      rw [total]
      simp only [Token.significandLimit, UInt64.size] at high ⊢
      omega
    have scanned : ∀ negative, Token.scanNumber negative first digits =
        (.number (Token.numberValue negative (first :: digits) [] none), []) := by
      intro negative
      rw [Token.scanNumber, taken, left]
      simp only [if_neg noLeadingZero]
      rfl
    by_cases negative : value < 0
    · refine ⟨true, first, digits, firstDigit, ?_, ?_⟩
      · simp [numberChars, integerChars, negative, written]
      · have nonzero : value.natAbs ≠ 0 := by omega
        have small : ¬ 0x8000000000000000 < value.natAbs := by omega
        have back : -(value.natAbs : Int) = value := by omega
        rw [scanned]
        have sign : (value.natAbs == 0 || decide (0x8000000000000000 < value.natAbs)) = false := by
          simp [nonzero, small]
        simp only [Token.numberValue, accumulated, sign, List.isEmpty_nil, Option.isNone_none,
          Bool.and_self, Bool.not_true, Bool.false_eq_true, if_true, if_false, back]
    · refine ⟨false, first, digits, firstDigit, ?_, ?_⟩
      · simp [numberChars, integerChars, negative, written]
      · have back : (value.natAbs : Int) = value := by omega
        rw [scanned]
        simp [Token.numberValue, accumulated, back]

end Number

end Json

end Blockwright
