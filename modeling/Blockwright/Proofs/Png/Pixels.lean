import Blockwright.Proofs.Image.Positions
import Blockwright.Proofs.Png.Decoded
import Blockwright.Proofs.Png.Layout
import Blockwright.Proofs.Png.Samples

/-!
# Pixels of images

An image whose rows are packed with samples has the pixels that these samples give: by their share
of the range, by the color that is transparent, or by the palette. It has no pixels only if a sample
is outside the palette, and then the first of these is named.
-/

namespace Blockwright

/-! ## Samples and channels -/

namespace Depth

/-- Whether a byte is a sample with eight bits: the high ones of a wider sample, and the share of
the range that a narrower one has of its own. -/
def Scales (depth : Depth) (sample : Nat) (byte : UInt8) : Prop :=
  byte.toNat =
    match depth with
    | .sixteen => sample >>> 8
    | .eight => sample
    | depth => 255 * sample / (2 ^ depth.bits - 1)

theorem scales_toByte {depth : Depth} {sample : Nat} (small : sample < 2 ^ depth.bits) :
    depth.Scales sample (depth.toByte sample) := by
  cases depth with
  | one | two | four =>
    simp only [bits] at small
    simp only [Scales, toByte, bits, UInt8.toNat_ofNat', Nat.one_shiftLeft]
    omega
  | eight => exact UInt8.toNat_ofNat_of_lt' small
  | sixteen =>
    simp only [bits] at small
    simp only [Scales, toByte, UInt8.toNat_ofNat', Nat.shiftRight_eq_div_pow]
    omega

/-- The bytes of a sample of sixteen bits. -/
def wideBytes (sample : Nat) : List UInt8 :=
  [UInt8.ofNat (sample / 256), UInt8.ofNat (sample % 256)]

theorem wideSamples_flatMap_wideBytes {samples : List Nat}
    (small : ∀ sample ∈ samples, sample < 2 ^ 16) :
    wideSamples (samples.flatMap wideBytes) = samples := by
  induction samples with
  | nil => rfl
  | cons sample samples ih =>
    rw [List.forall_mem_cons] at small
    have number : (UInt8.ofNat (sample / 256)).toNat * 256 + (UInt8.ofNat (sample % 256)).toNat =
        sample := by
      have bound := small.1
      simp only [UInt8.toNat_ofNat']
      omega
    rw [List.flatMap_cons, wideBytes, List.cons_append, List.cons_append, List.nil_append,
      wideSamples, ih small.2, number]

theorem flatMap_wideBytes_wideSamples {bytes : List UInt8} (even : 2 ∣ bytes.length) :
    (wideSamples bytes).flatMap wideBytes = bytes := by
  fun_induction wideSamples bytes with
  | case1 high low rest ih =>
    have evenRest : 2 ∣ rest.length := by
      simp only [List.length_cons] at even
      omega
    have bound := low.toNat_lt
    have highByte : (high.toNat * 256 + low.toNat) / 256 = high.toNat := by omega
    have lowByte : (high.toNat * 256 + low.toNat) % 256 = low.toNat := by omega
    rw [List.flatMap_cons, ih evenRest, wideBytes, highByte, lowByte, UInt8.ofNat_toNat,
      UInt8.ofNat_toNat]
    rfl
  | case2 bytes other =>
    rcases bytes with _ | ⟨high, _ | ⟨low, rest⟩⟩
    · rfl
    · simp at even
    · exact absurd rfl (other high low rest)

theorem length_flatMap_wideBytes (samples : List Nat) :
    (samples.flatMap wideBytes).length = 2 * samples.length := by
  induction samples with
  | nil => rfl
  | cons sample samples ih =>
    rw [List.flatMap_cons, List.length_append, ih, List.length_cons, wideBytes]
    simp only [List.length_cons, List.length_nil]
    omega

end Depth

namespace Png

variable {png : Png}

/-- Whether the transparency of an image begins with the samples of a color, two bytes for each. -/
def Clears (png : Png) (samples : List Nat) : Prop :=
  ∃ rest, png.transparency = some (samples.flatMap Depth.wideBytes ++ rest)

theorem isTransparent_iff {samples : List Nat} (small : ∀ sample ∈ samples, sample < 2 ^ 16) :
    png.isTransparent samples = true ↔ png.Clears samples := by
  rw [isTransparent, Clears]
  cases png.transparency with
  | none => simp
  | some bytes =>
    simp only [Bool.and_eq_true, decide_eq_true_eq, beq_iff_eq, Option.some.injEq]
    constructor
    · rintro ⟨long, same⟩
      refine ⟨bytes.drop (2 * samples.length), ?_⟩
      have even : 2 ∣ (bytes.take (2 * samples.length)).length := by
        rw [List.length_take]
        omega
      rw [← same, Depth.flatMap_wideBytes_wideSamples even, same, List.take_append_drop]
    · rintro ⟨rest, rfl⟩
      have length := Depth.length_flatMap_wideBytes samples
      rw [List.length_append, List.take_left' length, Depth.wideSamples_flatMap_wideBytes small]
      exact ⟨by omega, rfl⟩

/-- Whether a color has an opacity: none exactly if the transparency of the image names it. -/
def Keys (png : Png) (samples : List Nat) (alpha : UInt8) : Prop :=
  png.Clears samples ∧ alpha = 0 ∨ ¬ png.Clears samples ∧ alpha = 255

theorem keys_keyedAlpha {samples : List Nat} (small : ∀ sample ∈ samples, sample < 2 ^ 16) :
    png.Keys samples (png.keyedAlpha samples) := by
  rw [keyedAlpha, Keys, ← isTransparent_iff small]
  split
  · next named => exact .inl ⟨named, rfl⟩
  · next unnamed => exact .inr ⟨unnamed, rfl⟩

/-- Whether a pixel is the one that samples give. -/
inductive Shows (png : Png) : List Nat → Pixel → Prop where
  /-- One sample for all three colors, of which one may be transparent. -/
  | gray {sample : Nat} {pixel : Pixel} :
    png.header.color = .grayscale → png.header.depth.Scales sample pixel.red →
    png.header.depth.Scales sample pixel.green → png.header.depth.Scales sample pixel.blue →
    png.Keys [sample] pixel.alpha → Shows png [sample] pixel
  /-- One sample for all three colors, and one for the opacity. -/
  | grayAlpha {sample alpha : Nat} {pixel : Pixel} :
    png.header.color = .grayscaleAlpha → png.header.depth.Scales sample pixel.red →
    png.header.depth.Scales sample pixel.green → png.header.depth.Scales sample pixel.blue →
    png.header.depth.Scales alpha pixel.alpha → Shows png [sample, alpha] pixel
  /-- A sample for each color, of which one may be transparent. -/
  | rgb {red green blue : Nat} {pixel : Pixel} :
    png.header.color = .rgb → png.header.depth.Scales red pixel.red →
    png.header.depth.Scales green pixel.green → png.header.depth.Scales blue pixel.blue →
    png.Keys [red, green, blue] pixel.alpha → Shows png [red, green, blue] pixel
  /-- A sample for each color, and one for the opacity. -/
  | rgba {red green blue alpha : Nat} {pixel : Pixel} :
    png.header.color = .rgba → png.header.depth.Scales red pixel.red →
    png.header.depth.Scales green pixel.green → png.header.depth.Scales blue pixel.blue →
    png.header.depth.Scales alpha pixel.alpha → Shows png [red, green, blue, alpha] pixel
  /-- A place in the palette, and in the transparency as far as that goes. -/
  | indexed {index : Nat} {pixel : Pixel} :
    png.header.color = .indexed → png.palette[index]? = some pixel.color →
    pixel.alpha = ((png.transparency.getD [])[index]?).getD 255 → Shows png [index] pixel

theorem exists_four {α : Type} {values : List α} (length : values.length = 4) :
    ∃ first second third fourth, values = [first, second, third, fourth] := by
  obtain ⟨first, rest, rfl⟩ := List.exists_cons_of_length_eq_add_one length
  obtain ⟨second, third, fourth, rfl⟩ := List.length_eq_three.1 (Nat.succ.inj length)
  exact ⟨first, second, third, fourth, rfl⟩

/-- A pixel has its samples, unless they are outside the palette. -/
theorem pixel_cases {samples : List Nat} (count : samples.length = png.header.color.channels)
    (small : ∀ sample ∈ samples, sample < 2 ^ png.header.depth.bits) :
    (∃ pixel, png.pixel samples = .ok pixel ∧ png.Shows samples pixel) ∨
      ∃ index, samples = [index] ∧ png.header.color = .indexed ∧ png.palette.length ≤ index ∧
        png.pixel samples = .error (.paletteIndex (UInt8.ofNat index)) := by
  have wide : ∀ sample ∈ samples, sample < 2 ^ 16 := fun sample isSample =>
    (small sample isSample).trans_le (Nat.pow_le_pow_right (by decide)
      (by cases png.header.depth <;> decide))
  have scales : ∀ sample ∈ samples,
      png.header.depth.Scales sample (png.header.depth.toByte sample) :=
    fun sample isSample => Depth.scales_toByte (small sample isSample)
  unfold pixel
  cases color : png.header.color with
  | grayscale =>
    rw [color] at count
    obtain ⟨gray, rfl⟩ := List.length_eq_one_iff.1 count
    have gray := scales gray (by simp)
    exact .inl ⟨_, rfl, .gray color gray gray gray (keys_keyedAlpha wide)⟩
  | grayscaleAlpha =>
    rw [color] at count
    obtain ⟨gray, alpha, rfl⟩ := List.length_eq_two.1 count
    have gray := scales gray (by simp)
    exact .inl ⟨_, rfl, .grayAlpha color gray gray gray (scales alpha (by simp))⟩
  | rgb =>
    rw [color] at count
    obtain ⟨red, green, blue, rfl⟩ := List.length_eq_three.1 count
    exact .inl ⟨_, rfl, .rgb color (scales red (by simp)) (scales green (by simp))
      (scales blue (by simp)) (keys_keyedAlpha wide)⟩
  | rgba =>
    rw [color] at count
    obtain ⟨red, green, blue, alpha, rfl⟩ := exists_four count
    exact .inl ⟨_, rfl, .rgba color (scales red (by simp)) (scales green (by simp))
      (scales blue (by simp)) (scales alpha (by simp))⟩
  | indexed =>
    rw [color] at count
    obtain ⟨index, rfl⟩ := List.length_eq_one_iff.1 count
    dsimp only
    rw [palettePixel]
    cases found : png.palette[index]? with
    | none => exact .inr ⟨index, rfl, rfl, List.getElem?_eq_none_iff.1 found, rfl⟩
    | some entry =>
      refine .inl ⟨_, rfl, .indexed color found ?_⟩
      cases png.transparency <;> rfl

/-! ## Packed images -/

/-- The samples of the pixel in a column and a row. -/
def samplesAt (png : Png) (sample : (x y channel : Nat) → Nat) (x y : Nat) : List Nat :=
  (List.range png.header.color.channels).map (sample x y)

/-- The samples of a row. -/
def rowSamples (png : Png) (sample : (x y channel : Nat) → Nat) (y : Nat) : List Nat :=
  (List.range png.header.width.toNat).flatMap fun x => png.samplesAt sample x y

/-- The bytes of a row. -/
def rowAt (png : Png) (y : Nat) : List UInt8 :=
  (png.raw.drop (y * png.header.stride)).take png.header.stride

/-- Whether the rows of a whole image are packed with samples, which are given by column, row and
channel. -/
structure Packs (png : Png) (sample : (x y channel : Nat) → Nat) : Prop extends png.IsWhole where
  small : ∀ x < png.header.width.toNat, ∀ y < png.header.height.toNat,
    ∀ channel < png.header.color.channels, sample x y channel < 2 ^ png.header.depth.bits
  packed : ∀ y < png.header.height.toNat,
    png.header.depth.Packs (png.rowSamples sample y) (png.rowAt y)

theorem rows_eq (stride count : Nat) (bytes : List UInt8) :
    rows stride count bytes =
      (List.range count).map fun y => (bytes.drop (y * stride)).take stride := by
  induction count generalizing bytes with
  | zero => rfl
  | succ count ih =>
    rw [rows, ih, List.range_succ_eq_map, List.map_cons, List.map_map, Nat.zero_mul, List.drop_zero]
    congr 1
    refine List.map_congr_left fun y _ => ?_
    rw [List.drop_drop, Function.comp_apply, Nat.succ_mul, Nat.add_comm]

theorem flatten_positions {α : Type} (width height : Nat) (value : (x y : Nat) → α) :
    ((List.range height).map fun y => (List.range width).map fun x => value x y).flatten =
      (List.range (width * height)).map fun place => value (place % width) (place / width) := by
  induction height with
  | zero => rfl
  | succ height ih =>
    rw [List.range_succ, List.map_append, List.flatten_append, ih, Nat.mul_succ, List.range_add,
      List.map_append, List.map_map]
    congr 1
    simp only [List.map_cons, List.map_nil, List.flatten_cons, List.flatten_nil, List.append_nil]
    refine List.map_congr_left fun x isColumn => ?_
    rw [List.mem_range] at isColumn
    rw [Function.comp_apply, Nat.mul_comm width, Image.position_mod isColumn,
      Image.position_div isColumn]

theorem Header.dvd_stride (header : Header) : header.depth.bits ∣ 8 * header.stride := by
  rw [Header.stride]
  cases header.depth <;> simp only [Depth.bits] <;> omega

theorem pixelsOfSamples_flatMap (png : Png) (columns : List Nat) {samples : Nat → List Nat}
    (lengths : ∀ x, (samples x).length = png.header.color.channels) (rest : List Nat) :
    png.pixelsOfSamples columns.length (columns.flatMap samples ++ rest) =
      columns.mapM fun x => png.pixel (samples x) := by
  induction columns with
  | nil => rfl
  | cons x columns ih =>
    rw [List.flatMap_cons, List.append_assoc, List.length_cons, pixelsOfSamples,
      List.take_left' (lengths x), List.drop_left' (lengths x), ih, List.mapM_cons]

theorem length_samplesAt (sample : (x y channel : Nat) → Nat) (x y : Nat) :
    (png.samplesAt sample x y).length = png.header.color.channels := by
  rw [samplesAt, List.length_map, List.length_range]

theorem length_rowAt (whole : png.IsWhole) {y : Nat} (isRow : y < png.header.height.toNat) :
    (png.rowAt y).length = png.header.stride := by
  have enough : (y + 1) * png.header.stride ≤ png.header.height.toNat * png.header.stride :=
    Nat.mul_le_mul_right _ isRow
  rw [rowAt, List.length_take, List.length_drop, whole.length]
  rw [Nat.succ_mul] at enough
  omega

variable {sample : (x y channel : Nat) → Nat}

theorem Packs.small_samplesAt (packs : png.Packs sample) {x y : Nat}
    (isColumn : x < png.header.width.toNat) (isRow : y < png.header.height.toNat) :
    ∀ number ∈ png.samplesAt sample x y, number < 2 ^ png.header.depth.bits := by
  intro number isSample
  obtain ⟨channel, isChannel, rfl⟩ := List.mem_map.1 isSample
  exact packs.small x isColumn y isRow channel (List.mem_range.1 isChannel)

theorem Packs.pixelsOfSamples_rowAt (packs : png.Packs sample) {y : Nat}
    (isRow : y < png.header.height.toNat) :
    png.pixelsOfSamples png.header.width.toNat (png.header.depth.samples (png.rowAt y)) =
      (List.range png.header.width.toNat).mapM fun x => png.pixel (png.samplesAt sample x y) := by
  have small : ∀ number ∈ png.rowSamples sample y, number < 2 ^ png.header.depth.bits := by
    intro number isSample
    obtain ⟨x, isColumn, isSample⟩ := List.mem_flatMap.1 isSample
    exact packs.small_samplesAt (List.mem_range.1 isColumn) isRow number isSample
  have whole : png.header.depth.bits ∣ 8 * (png.rowAt y).length :=
    length_rowAt packs.toIsWhole isRow ▸ png.header.dvd_stride
  obtain ⟨rest, samples⟩ := (packs.packed y isRow).take_samples small whole
  have row := pixelsOfSamples_flatMap png (List.range png.header.width.toNat)
    (fun x => length_samplesAt sample x y) rest
  rw [List.length_range] at row
  rw [← samples]
  exact row

theorem Packs.pixels_eq (packs : png.Packs sample) :
    png.pixels = (List.range (png.header.width.toNat * png.header.height.toNat)).mapM
      fun place => png.pixel (png.samplesAt sample (place % png.header.width.toNat)
        (place / png.header.width.toNat)) := by
  have count : png.raw.length / png.header.stride = png.header.height.toNat := by
    rw [packs.length]
    exact Nat.mul_div_cancel _ (Header.stride_pos packs.header)
  have perRow : (rows png.header.stride png.header.height.toNat png.raw).mapM (fun row =>
      png.pixelsOfSamples png.header.width.toNat (png.header.depth.samples row)) =
        ((List.range png.header.height.toNat).map fun y =>
          (List.range png.header.width.toNat).map fun x => png.samplesAt sample x y).mapM
            (·.mapM png.pixel) := by
    rw [rows_eq, List.mapM_map, List.mapM_map]
    refine Outcome.mapM_congr fun y isRow => ?_
    rw [Function.comp_apply, Function.comp_apply, List.mapM_map]
    exact packs.pixelsOfSamples_rowAt (List.mem_range.1 isRow)
  rw [pixels, count]
  rw [perRow, Outcome.mapM_mapM, flatten_positions, List.mapM_map]
  rfl

/-- Whether an image shows the samples of another one, with four bytes for each position. -/
structure Expands (png : Png) (sample : (x y channel : Nat) → Nat) (image : Image) : Prop where
  width : image.width = png.header.width
  height : image.height = png.header.height
  length : image.bytes.length = 4 * Image.area png.header.width png.header.height
  shows : ∀ x < png.header.width.toNat, ∀ y < png.header.height.toNat,
    png.Shows (png.samplesAt sample x y) (image.get x y)

/-- Whether a position is the first one, row by row, whose sample is outside the palette. -/
structure FirstOutside (png : Png) (sample : (x y channel : Nat) → Nat) (x y : Nat) : Prop where
  indexed : png.header.color = .indexed
  column : x < png.header.width.toNat
  row : y < png.header.height.toNat
  outside : png.palette.length ≤ sample x y 0
  first : ∀ otherX < png.header.width.toNat, ∀ otherY,
    otherY < y ∨ otherY = y ∧ otherX < x → sample otherX otherY 0 < png.palette.length

theorem Shows.lt_length {samples : List Nat} {pixel : Pixel} (shows : png.Shows samples pixel)
    (indexed : png.header.color = .indexed) : ∀ index ∈ samples, index < png.palette.length := by
  cases shows with
  | indexed _ found =>
    rw [List.forall_mem_singleton]
    exact (List.getElem?_eq_some_iff.1 found).1
  | gray color | grayAlpha color | rgb color | rgba color =>
    rw [indexed] at color
    cases color

theorem mem_samplesAt (png : Png) (sample : (x y channel : Nat) → Nat) (x y : Nat) :
    sample x y 0 ∈ png.samplesAt sample x y := by
  refine List.mem_map_of_mem (List.mem_range.2 ?_)
  cases png.header.color <;> decide

/-- A pixel that is made shows the samples at its position. -/
theorem Packs.shows (packs : png.Packs sample) {x y : Nat} (isColumn : x < png.header.width.toNat)
    (isRow : y < png.header.height.toNat) {pixel : Pixel}
    (made : png.pixel (png.samplesAt sample x y) = .ok pixel) :
    png.Shows (png.samplesAt sample x y) pixel := by
  rcases pixel_cases (length_samplesAt sample x y) (packs.small_samplesAt isColumn isRow) with
    ⟨other, isOk, shows⟩ | ⟨_, -, -, -, isError⟩
  · rw [made] at isOk
    cases isOk
    exact shows
  · rw [made] at isError
    cases isError

theorem mem_before_of_lt {count place other : Nat} {before after : List Nat}
    (numbers : List.range count = before ++ place :: after) (smaller : other < place) :
    other ∈ before := by
  have isPlace : place ∈ List.range count := by
    rw [numbers]
    exact List.mem_append_right _ List.mem_cons_self
  have ascending := List.pairwise_lt_range (n := count)
  have isNumber : other ∈ List.range count :=
    List.mem_range.2 (smaller.trans (List.mem_range.1 isPlace))
  rw [numbers] at isNumber ascending
  rcases List.mem_append.1 isNumber with isBefore | later
  · exact isBefore
  · rcases List.mem_cons.1 later with rfl | later
    · exact absurd smaller (Nat.lt_irrefl _)
    · have larger := (List.pairwise_cons.1 (List.pairwise_append.1 ascending).2.1).1 other later
      omega

/-- An image whose samples have pixels shows them. -/
theorem Packs.exists_image (packs : png.Packs sample) {found : List Pixel}
    (pixels : png.pixels = .ok found) :
    ∃ image, png.toImage = .ok image ∧ png.Expands sample image := by
  have each := Outcome.mapM_eq_ok.1 (packs.pixels_eq.symm.trans pixels)
  have length := each.length_eq
  rw [List.length_range] at length
  have sized : found.length = Image.area png.header.width png.header.height := length.symm
  have made : png.toImage = .ok ⟨png.header.width, png.header.height, found.toArray⟩ := by
    simp [toImage, pixels, bind, Except.bind, pure, Except.pure, sized]
  refine ⟨_, made, rfl, rfl, (toImage_eq_ok made).2.2.length_bytes, ?_⟩
  intro x isColumn y isRow
  have isPlace := Image.position_lt isColumn isRow
  have inside : y * png.header.width.toNat + x < found.length := length ▸ isPlace
  have pixel := (List.forall₂_iff_get.1 each).2 (y * png.header.width.toNat + x)
    (by rwa [List.length_range]) inside
  simp only [List.get_eq_getElem, List.getElem_range, Image.position_mod isColumn,
    Image.position_div isColumn] at pixel
  have here : Image.get ⟨png.header.width, png.header.height, found.toArray⟩ x y =
      found[y * png.header.width.toNat + x] := by
    simp [Image.get, inside]
  rw [here]
  exact packs.shows isColumn isRow pixel

/-- An image whose samples have no pixels has one outside the palette, and names the first. -/
theorem Packs.exists_firstOutside (packs : png.Packs sample) {error : Error}
    (pixels : png.pixels = .error error) :
    ∃ x y, png.FirstOutside sample x y ∧ error = .paletteIndex (UInt8.ofNat (sample x y 0)) := by
  obtain ⟨before, place, after, positions, earlier, failed⟩ :=
    Outcome.mapM_eq_error.1 (packs.pixels_eq.symm.trans pixels)
  have isPlace : place ∈ List.range (png.header.width.toNat * png.header.height.toNat) := by
    rw [positions]
    exact List.mem_append_right _ List.mem_cons_self
  rw [List.mem_range] at isPlace
  have wide : 0 < png.header.width.toNat := Nat.pos_of_mul_pos_right (Nat.zero_lt_of_lt isPlace)
  have isColumn : place % png.header.width.toNat < png.header.width.toNat := Nat.mod_lt _ wide
  have isRow : place / png.header.width.toNat < png.header.height.toNat :=
    Nat.div_lt_of_lt_mul isPlace
  rcases pixel_cases (length_samplesAt sample _ _) (packs.small_samplesAt isColumn isRow) with
    ⟨pixel, isOk, -⟩ | ⟨index, samples, indexed, outside, isError⟩
  · rw [failed] at isOk
    cases isOk
  · have isIndex : sample (place % png.header.width.toNat) (place / png.header.width.toNat) 0 =
        index := by
      have isSample := mem_samplesAt png sample (place % png.header.width.toNat)
        (place / png.header.width.toNat)
      rwa [samples, List.mem_singleton] at isSample
    refine ⟨_, _, ⟨indexed, isColumn, isRow, isIndex ▸ outside, ?_⟩, ?_⟩
    · intro otherX otherColumn otherY sooner
      have smaller := Image.position_lt_position otherColumn sooner
      rw [Nat.div_add_mod'] at smaller
      obtain ⟨pixel, made⟩ := earlier _ (mem_before_of_lt positions smaller)
      rw [Image.position_mod otherColumn, Image.position_div otherColumn] at made
      have otherRow : otherY < png.header.height.toNat := by
        rcases sooner with above | ⟨rfl, -⟩
        · exact above.trans isRow
        · exact isRow
      exact (packs.shows otherColumn otherRow made).lt_length indexed _ (mem_samplesAt _ _ _ _)
    · rw [failed] at isError
      rw [isIndex]
      exact Except.error.inj isError

theorem toImage_eq_error {error : Error} (pixels : png.pixels = .error error) :
    png.toImage = .error error := by
  rw [toImage, pixels]
  rfl

theorem Packs.lt_of_indexed (packs : png.Packs sample) (indexed : png.header.color = .indexed)
    {x y : Nat} (isColumn : x < png.header.width.toNat) (isRow : y < png.header.height.toNat) :
    sample x y 0 < 256 := by
  have small := packs.small_samplesAt isColumn isRow _ (mem_samplesAt png sample x y)
  have allowed := packs.header.allowed
  rw [indexed] at allowed
  refine small.trans_le ?_
  cases depth : png.header.depth <;> simp [depth, ColorType.allows] at allowed <;> decide

theorem map_range_getD {values : List Nat} {count : Nat} (enough : count ≤ values.length) :
    (List.range count).map (fun place => values.getD place 0) = values.take count := by
  refine List.ext_getElem (by simp [enough]) fun place inside _ => ?_
  rw [List.length_map, List.length_range] at inside
  simp [List.getElem?_eq_getElem (inside.trans_le enough)]

theorem le_length_samples (whole : png.IsWhole) {y : Nat} (isRow : y < png.header.height.toNat) :
    png.header.color.channels * png.header.width.toNat ≤
      (png.header.depth.samples (png.rowAt y)).length := by
  have row := length_rowAt whole isRow
  have length := Depth.length_samples (row ▸ png.header.dvd_stride)
  refine Nat.le_of_mul_le_mul_right ?_ png.header.depth.bits_pos
  rw [length, row, Header.stride, Nat.mul_comm png.header.color.channels]
  omega

/-- The rows of a whole image are packed with samples. -/
theorem IsWhole.exists_packs (whole : png.IsWhole) : ∃ sample, png.Packs sample := by
  let sample (x y channel : Nat) :=
    (png.header.depth.samples (png.rowAt y)).getD (x * png.header.color.channels + channel) 0
  refine ⟨sample, whole, fun x isColumn y isRow channel isChannel => ?_, fun y isRow => ?_⟩
  · have inside := (Image.position_lt isChannel isColumn).trans_le (le_length_samples whole isRow)
    have here : sample x y channel = (png.header.depth.samples (png.rowAt y))[
        x * png.header.color.channels + channel] := by
      simp [sample, inside]
    rw [here]
    exact Depth.samples_lt _ (List.getElem_mem inside)
  · have numbers : png.rowSamples sample y = (png.header.depth.samples (png.rowAt y)).take
        (png.header.color.channels * png.header.width.toNat) := by
      rw [← map_range_getD (le_length_samples whole isRow), rowSamples, List.flatMap_def]
      refine (flatten_positions _ _ _).trans (List.map_congr_left fun place _ => ?_)
      simp only [Nat.div_add_mod']
    rw [numbers]
    exact Depth.packs_take (length_rowAt whole isRow ▸ png.header.dvd_stride) _

/-- An image whose rows are packed with samples has the pixels that the samples give, unless one of
them is outside the palette; then the first of these is named. Every image that is decoded has rows
of the length and the number that its header tells, and they are packed with samples. -/
theorem toImage_packed :
    (∀ (png : Png) (sample : (x y channel : Nat) → Nat), png.Packs sample →
      (∃ image, png.toImage = .ok image ∧ png.Expands sample image ∧
        (png.header.color = .indexed → ∀ x < png.header.width.toNat,
          ∀ y < png.header.height.toNat, sample x y 0 < png.palette.length)) ∨
      ∃ x y, ∃ index : UInt8, png.FirstOutside sample x y ∧ index.toNat = sample x y 0 ∧
        png.toImage = .error (.paletteIndex index)) ∧
    ∀ (bytes : List UInt8) (png : Png), decode bytes = .ok png →
      png.raw.length = png.header.height.toNat * png.header.stride ∧
        ∃ sample, png.Packs sample := by
  constructor
  · intro png sample packs
    cases pixels : png.pixels with
    | ok found =>
      obtain ⟨image, made, expands⟩ := packs.exists_image pixels
      refine .inl ⟨image, made, expands, fun indexed x isColumn y isRow => ?_⟩
      exact (expands.shows x isColumn y isRow).lt_length indexed _ (mem_samplesAt _ _ _ _)
    | error error =>
      obtain ⟨x, y, first, rfl⟩ := packs.exists_firstOutside pixels
      have byte := packs.lt_of_indexed first.indexed first.column first.row
      exact .inr ⟨x, y, _, first, UInt8.toNat_ofNat_of_lt' byte, toImage_eq_error pixels⟩
  · intro bytes png decoded
    have whole := isWhole_of_decode decoded
    exact ⟨whole.length, whole.exists_packs⟩

/-- Three columns and two rows of places in a palette, two bits each, with two bits behind every
row. The first color is clear. -/
def tile : Png where
  header := { width := 3, height := 2, depth := .two, color := .indexed }
  raw := [0b00011011, 0b10000001]
  palette := [⟨1, 2, 3⟩, ⟨4, 5, 6⟩, ⟨7, 8, 9⟩]
  transparency := some [0]

def tileSample (x y _channel : Nat) : Nat := ([[0, 1, 2], [2, 0, 0]].getD y []).getD x 0

theorem packs_tile : tile.Packs tileSample where
  header := ⟨by decide, by decide, rfl⟩
  length := by decide
  small := by decide
  packed y isRow := by
    have isRow : y < 2 := isRow
    interval_cases y
    · exact ⟨[true, true], by decide⟩
    · exact ⟨[false, true], by decide⟩

/-- A tile has pixels of the three colors in its palette. With two colors the third one is named.
The pixel of a decoded file has samples. -/
theorem toImage_packed_tile :
    (∃ image, tile.toImage = .ok image ∧ tile.Expands tileSample image) ∧
    toImage { tile with palette := [⟨1, 2, 3⟩, ⟨4, 5, 6⟩] } = .error (.paletteIndex 2) ∧
    ∃ sample, (written 1 1 [10, 20, 30, 255]).Packs sample := by
  have few : Packs { tile with palette := [⟨1, 2, 3⟩, ⟨4, 5, 6⟩] } tileSample :=
    ⟨⟨packs_tile.header, packs_tile.length⟩, packs_tile.small, packs_tile.packed⟩
  have inside : ∀ y < 2, ∀ x < 3, tileSample x y 0 < 3 := by decide
  refine ⟨?_, ?_, ((toImage_packed.2 _ _ Layout.decode_pixel).2)⟩
  · rcases toImage_packed.1 _ _ packs_tile with ⟨image, made, expands, -⟩ | ⟨x, y, -, first, -⟩
    · exact ⟨image, made, expands⟩
    · exact absurd first.outside (Nat.not_le.2 (inside y first.row x first.column))
  · rcases toImage_packed.1 _ _ few with
      ⟨-, -, -, inside⟩ | ⟨x, y, index, first, isIndex, refused⟩
    · exact absurd (inside rfl 2 (by decide) 0 (by decide)) (by decide)
    · have bound := inside y first.row x first.column
      have outside : 2 ≤ tileSample x y 0 := first.outside
      obtain rfl : index = 2 := UInt8.toNat_inj.1 (isIndex.trans (by simp; omega))
      exact refused

end Png

end Blockwright
