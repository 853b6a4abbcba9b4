import Mathlib.Data.Nat.Prime.Basic
import Mathlib.Tactic.NormNum.Prime
import Blockwright.Proofs.Png.Decoded

/-!
# Numbers of bytes in words

The number of bytes of an image's rows is checked against the words that count them, but image data
is read up to one byte more. That number does not fit exactly if the rows have `2 ^ 64 - 1` bytes.
Since this is a product of seven primes, the height of such an image is one of a few divisors, and
only eleven headers are left.
-/

namespace Blockwright

namespace Png

/-! ## Divisors of a product of primes -/

section Divisors

variable {primes : List ℕ}

/-- All products of some of the factors. -/
def products : List ℕ → List ℕ
  | [] => [1]
  | factor :: rest => (products rest).flatMap fun product => [product, factor * product]

theorem mem_products_of_dvd (prime : ∀ factor ∈ primes, factor.Prime) {divisor : ℕ}
    (divides : divisor ∣ primes.prod) : divisor ∈ products primes := by
  induction primes generalizing divisor with
  | nil => exact List.mem_singleton.2 (Nat.dvd_one.1 divides)
  | cons factor rest ih =>
    obtain ⟨isPrime, others⟩ := List.forall_mem_cons.1 prime
    rw [List.prod_cons] at divides
    obtain ⟨left, right, ofFactor, ofRest, rfl⟩ := (Nat.dvd_mul).1 divides
    refine List.mem_flatMap.2 ⟨right, ih others ofRest, ?_⟩
    rcases (Nat.dvd_prime isPrime).1 ofFactor with rfl | rfl <;> simp

/-- The primes whose product is the greatest word. -/
def wordFactors : List ℕ := [3, 5, 17, 257, 641, 65537, 6700417]

theorem prod_wordFactors : wordFactors.prod = UInt64.size - 1 := by decide

theorem prime_of_mem_wordFactors : ∀ factor ∈ wordFactors, factor.Prime := by
  simp only [wordFactors, List.forall_mem_cons, List.not_mem_nil, false_imp_iff, implies_true,
    and_true]
  norm_num

end Divisors

namespace Header

/-! ## Rows that fill the words -/

/-- Number of bits per pixel. -/
def pixelBits (header : Header) : ℕ := header.color.channels * header.depth.bits

/-- The numbers of bits that a pixel may have. -/
def allPixelBits : List ℕ := [1, 2, 4, 8, 16, 24, 32, 48, 64]

theorem channels_mul_bits_mem {color : ColorType} {depth : Depth}
    (allowed : color.allows depth = true) : color.channels * depth.bits ∈ allPixelBits := by
  revert allowed
  cases color <;> cases depth <;> decide

/-- The numbers of bits per pixel, of columns and of rows of the images whose rows have as many
bytes as the greatest word. -/
def fullImages : List (ℕ × ℕ × ℕ) :=
  [(16, 2583010753, 3570783445), (16, 2147483648, 4294967295), (24, 2870011948, 2142470067),
    (32, 2699092192, 1708606335), (32, 2152508961, 2142470067), (32, 1073741824, 4294967295),
    (48, 3579139414, 858993459), (48, 1435005974, 2142470067), (64, 3659265234, 630138255),
    (64, 1349546096, 1708606335), (64, 536870912, 4294967295)]

/-- The words that divide the greatest word of 64 bits and leave no more than the bytes of a row. -/
def fullHeights : List ℕ :=
  [569535445, 630138255, 714156689, 858993459, 1431655765, 1708606335, 1722007169, 2142470067,
    3570783445, 4294967295]

theorem mem_fullHeights {height row : ℕ} (word : height < UInt32.size) (short : row ≤ 2 ^ 35)
    (full : height * row = UInt64.size - 1) : height ∈ fullHeights := by
  have divides : height ∣ wordFactors.prod := ⟨row, by rw [prod_wordFactors, full]⟩
  have bounded : ∀ height ∈ products wordFactors, height < UInt32.size →
      UInt64.size - 1 ≤ height * 2 ^ 35 → height ∈ fullHeights := by decide +kernel
  refine bounded height (mem_products_of_dvd prime_of_mem_wordFactors divides) word ?_
  rw [← full]
  exact Nat.mul_le_mul_left height short

theorem width_eq_div {bits width stride : ℕ} (whole : 8 ≤ bits)
    (isStride : (width * bits + 7) / 8 = stride) : stride * 8 / bits = width := by
  have next : (width + 1) * bits = width * bits + bits := Nat.succ_mul width bits
  exact Nat.div_eq_of_lt_le (by omega) (by omega)

theorem rows_lt {bits width height : ℕ} (shared : bits ≤ 4) (narrow : width < UInt32.size)
    (low : height < UInt32.size) : height * ((width * bits + 7) / 8 + 1) < UInt64.size - 1 := by
  have short : width * bits ≤ UInt32.size * 4 := Nat.mul_le_mul narrow.le shared
  have row : (width * bits + 7) / 8 + 1 ≤ UInt32.size / 2 + 1 := by
    simp only [UInt32.size] at short ⊢
    omega
  exact (Nat.mul_le_mul low.le row).trans_lt (by decide)

theorem mem_fullImages {bits height : ℕ} (isBits : bits ∈ allPixelBits)
    (isHeight : height ∈ fullHeights) :
    let width := ((UInt64.size - 1) / height - 1) * 8 / bits
    width < UInt32.size → height * ((width * bits + 7) / 8 + 1) = UInt64.size - 1 →
      (bits, width, height) ∈ fullImages := by
  revert height
  revert bits
  decide +kernel

theorem rows_full_iff {bits width height : ℕ} (isBits : bits ∈ allPixelBits)
    (narrow : width < UInt32.size) (low : height < UInt32.size) :
    height * ((width * bits + 7) / 8 + 1) = UInt64.size - 1 ↔
      (bits, width, height) ∈ fullImages := by
  constructor
  · intro full
    have bounds : ∀ bits ∈ allPixelBits, bits ≤ 64 ∧ (8 ≤ bits ∨ bits ≤ 4) := by decide
    -- pixels of at least a byte leave one width for each height, smaller ones leave none
    obtain ⟨most, whole | shared⟩ := bounds bits isBits
    · have short : width * bits ≤ (2 ^ 32 - 1) * 64 :=
        Nat.mul_le_mul (Nat.le_pred_of_lt narrow) most
      have isHeight := mem_fullHeights low (by omega) full
      have positive : 0 < height := Nat.pos_of_ne_zero fun none => by simp [none] at full
      have isStride : (width * bits + 7) / 8 = (UInt64.size - 1) / height - 1 := by
        rw [← full, Nat.mul_div_cancel_left _ positive, Nat.add_sub_cancel]
      have found := mem_fullImages isBits isHeight
      dsimp only at found
      rw [width_eq_div whole isStride] at found
      exact found narrow full
    · exact absurd full (rows_lt shared narrow low).ne
  · have each : ∀ image ∈ fullImages,
        image.2.2 * ((image.2.1 * image.1 + 7) / 8 + 1) = UInt64.size - 1 := by decide +kernel
    exact each _

variable {header : Header}

theorem IsValid.pixelBits_mem (valid : header.IsValid) : header.pixelBits ∈ allPixelBits :=
  channels_mul_bits_mem valid.allowed

theorem IsValid.rowBits_le (valid : header.IsValid) :
    header.width.toNat * header.color.channels * header.depth.bits ≤ 2 ^ 32 * 64 := by
  have most : ∀ bits ∈ allPixelBits, bits ≤ 64 := by decide
  rw [Nat.mul_assoc]
  exact Nat.mul_le_mul header.width.toNat_lt.le (most _ valid.pixelBits_mem)

theorem IsValid.dataSize_full_iff (valid : header.IsValid) :
    header.dataSize + 1 = addressLimit ↔
      (header.pixelBits, header.width.toNat, header.height.toNat) ∈ fullImages := by
  have positive : 0 < UInt64.size := by decide
  rw [← rows_full_iff valid.pixelBits_mem header.width.toNat_lt header.height.toNat_lt, pixelBits,
    ← Nat.mul_assoc, addressLimit, dataSize, stride]
  omega

end Header

/-! ## Reading image data -/

variable {expected : ℕ}

theorem inflateData_eq_ok (fits : expected + 1 < addressLimit) {data out : List UInt8} :
    inflateData expected data = .ok out ↔
      ∃ inflated, Zlib.decode (expected + 1) data = some inflated ∧ Bytes.list inflated = out := by
  rw [inflateData, if_neg (Nat.not_le.2 fits)]
  cases Zlib.decode (expected + 1) data <;> simp

theorem inflateData_eq_overflow {data : List UInt8} :
    inflateData expected data = .error .overflow ↔ addressLimit ≤ expected + 1 := by
  rw [inflateData]
  split
  · next full => simp [full]
  · next fits =>
    refine iff_of_false ?_ fits
    cases Zlib.decode (expected + 1) data <;> simp

theorem unfilterRows_ne_overflow {stride reach count : ℕ} {above data : List UInt8} :
    unfilterRows stride reach count above data ≠ .error .overflow := by
  fun_induction unfilterRows stride reach count above data with
  | case1 => nofun
  | case2 => nofun
  | case3 => nofun
  | case4 _ _ _ _ _ _ _ ih => rwa [Ne, Outcome.bind_pure_eq_error]

theorem Contents.complete_ne_overflow {contents : Contents} :
    contents.complete ≠ .error .overflow := by
  rw [complete]
  cases contents.header with
  | none => simp
  | some header =>
    dsimp only
    split_ifs <;> simp

/-- Contents stop the program exactly if their header asks for as many bytes as the greatest
word. -/
theorem ofContents_eq_overflow {contents : Contents} :
    ofContents contents = .error .overflow ↔
      ∃ header, contents.complete = .ok header ∧ header.dataSize + 1 = addressLimit := by
  rw [ofContents, Outcome.bind_eq_error]
  refine (or_iff_right Contents.complete_ne_overflow).trans (exists_congr fun header => ?_)
  refine and_congr_right fun _ => ?_
  dsimp only
  by_cases large : addressLimit ≤ header.dataSize
  · rw [if_pos large]
    exact iff_of_false nofun (by omega)
  · have halts := @inflateData_eq_overflow header.dataSize contents.data
    rw [if_neg large]
    simp only [Outcome.bind_eq_error, halts]
    refine (or_iff_left ?_).trans (by omega)
    -- what is checked of the data that was read has other faults
    rintro ⟨data, -, halted⟩
    split at halted
    · cases halted
    · rcases Outcome.bind_eq_error.1 halted with failed | ⟨raw, -, made⟩
      · rw [unfilter, Outcome.bind_pure_eq_error] at failed
        exact unfilterRows_ne_overflow failed
      · cases made

/-- The bits and bytes of a row fit into words for every header that is read. If all rows do so as
well, one byte more fits unless the header is one of eleven. Image data is then inflated up to this
byte; for the eleven headers the program stops, whatever the data is. -/
theorem header_sizes_fit {bytes : List UInt8} {header : Header}
    (read : Header.ofBytes bytes = .ok header) :
    header.width.toNat * header.color.channels * header.depth.bits < UInt64.size ∧
    header.stride + 1 < UInt64.size ∧
    (header.dataSize < addressLimit →
      (header.dataSize + 1 < addressLimit ↔
        (header.pixelBits, header.width.toNat, header.height.toNat) ∉ Header.fullImages)) ∧
    (header.dataSize + 1 < addressLimit → ∀ data out,
      inflateData header.dataSize data = .ok out ↔
        ∃ inflated, Zlib.decode (header.dataSize + 1) data = some inflated ∧
          Bytes.list inflated = out) ∧
    ∀ contents : Contents, contents.complete = .ok header →
      (ofContents contents = .error .overflow ↔
        (header.pixelBits, header.width.toNat, header.height.toNat) ∈ Header.fullImages) := by
  have valid := Header.isValid_of_ofBytes read
  have bits := valid.rowBits_le
  refine ⟨bits.trans_lt (by decide), ?_, fun addressed => ?_,
    fun fits data out => inflateData_eq_ok fits, fun contents complete => ?_⟩
  · rw [Header.stride, UInt64.size]
    omega
  · rw [← valid.dataSize_full_iff]
    omega
  · rw [ofContents_eq_overflow, complete, ← valid.dataSize_full_iff]
    simp

/-- One byte more than the rows of a pixel fits, and one byte more than those of an image with
`2 ^ 29` columns of eight bytes and `2 ^ 32 - 1` rows does not. -/
theorem header_sizes_fit_pixel :
    (∃ header, Header.ofBytes [0, 0, 0, 1, 0, 0, 0, 1, 8, 0, 0, 0, 0] = .ok header ∧
      header.dataSize + 1 < addressLimit) ∧
    ∃ header, Header.ofBytes [0x20, 0, 0, 0, 0xff, 0xff, 0xff, 0xff, 16, 6, 0, 0, 0] = .ok header ∧
      ofContents { header := some header, data := [0], ended := true } =
        .error .overflow := by
  constructor
  · have read : Header.ofBytes [0, 0, 0, 1, 0, 0, 0, 1, 8, 0, 0, 0, 0] =
        .ok { width := 1, height := 1, depth := .eight, color := .grayscale } := by decide
    obtain ⟨-, -, fits, -⟩ := header_sizes_fit read
    exact ⟨_, read, (fits (by decide)).2 (by decide)⟩
  · have read : Header.ofBytes [0x20, 0, 0, 0, 0xff, 0xff, 0xff, 0xff, 16, 6, 0, 0, 0] =
        .ok { width := 0x20000000, height := 0xffffffff, depth := .sixteen, color := .rgba } := by
      decide
    obtain ⟨-, -, -, -, halts⟩ := header_sizes_fit read
    exact ⟨_, read, (halts _ rfl).2 (by decide)⟩

end Png

end Blockwright
