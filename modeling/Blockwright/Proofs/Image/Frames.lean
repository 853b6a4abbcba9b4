import Blockwright.Proofs.Image.Cells
import Blockwright.Proofs.Png.RoundTrip
import Blockwright.Rendering.Origin

/-!
# Frames and bounds in words

The bytes of the first frame of a strip are counted in a word of 32 bits, and so are the bounds of
cells. A decoded image may have sides that are too long for these words. There is a first frame
exactly if it has fewer than `2 ^ 15` columns, and the bounds fit exactly if a side is shorter than
`2 ^ 30`. The places of pixels are words of 64 bits, which are wide enough wherever the bytes can be
held.
-/

namespace Blockwright

namespace Image

variable {image : Image}

/-- Whether an image consists of squares, one below the other. -/
structure IsStrip (image : Image) : Prop where
  longer : image.width.toNat < image.height.toNat
  multiple : image.width.toNat ∣ image.height.toNat

/-- An image that is not a strip is a single frame. -/
theorem firstFrame?_of_not_isStrip (single : ¬ image.IsStrip) : image.firstFrame? = some image := by
  rw [firstFrame?, if_pos]
  by_contra several
  simp only [Bool.or_eq_true, decide_eq_true_eq, bne_iff_ne, ne_eq, not_or, not_not,
    UInt32.le_iff_toNat_le, ← UInt32.toNat_inj, UInt32.toNat_mod] at several
  obtain ⟨⟨-, longer⟩, rest⟩ := several
  exact single ⟨not_le.1 longer, Nat.dvd_of_mod_eq_zero rest⟩

/-- The first pixels of a strip, as many as a square has. -/
def square (image : Image) : Image where
  width := image.width
  height := image.width
  pixels := image.pixels.take (area image.width image.width)

/-- The first frame of a strip is a square whose bytes a word of 32 bits must count. -/
theorem firstFrame?_of_isStrip (wide : image.width ≠ 0) (strip : image.IsStrip) :
    image.firstFrame? = if image.width.toNat < 2 ^ 15 then some image.square else none := by
  have rest : image.height % image.width = 0 := by
    rw [← UInt32.toNat_inj, UInt32.toNat_mod]
    exact Nat.mod_eq_zero_of_dvd strip.multiple
  have longer : ¬ image.height ≤ image.width := by
    rw [UInt32.le_iff_toNat_le]
    exact not_le.2 strip.longer
  have counted : 4 * area image.width image.width < UInt32.size ↔ image.width.toNat < 2 ^ 15 := by
    have root : area image.width image.width < 2 ^ 15 * 2 ^ 15 ↔ image.width.toNat < 2 ^ 15 :=
      Nat.mul_self_lt_mul_self_iff
    rw [← root, UInt32.size]
    omega
  rw [firstFrame?, if_neg (by simp [wide, longer, rest])]
  simp only [counted]
  rfl

theorem sized_square (sized : image.Sized) (strip : image.IsStrip) : image.square.Sized := by
  have enough : area image.width image.width ≤ area image.width image.height :=
    Nat.mul_le_mul_left _ strip.longer.le
  rw [Sized, square, Array.size_extract, sized]
  dsimp only
  omega

theorem take_flatMap_bytes (pixels : List Pixel) (count : ℕ) :
    (pixels.take count).flatMap Pixel.bytes = (pixels.flatMap Pixel.bytes).take (4 * count) := by
  induction pixels generalizing count with
  | nil => simp
  | cons pixel rest ih =>
    cases count with
    | zero => rfl
    | succ count =>
      have first : pixel.bytes.length = 4 := rfl
      rw [List.take_succ_cons, List.flatMap_cons, List.flatMap_cons, ih, Nat.mul_succ,
        Nat.add_comm, ← first, List.take_length_add_append]

theorem bytes_square (image : Image) :
    image.square.bytes = image.bytes.take (4 * (image.width.toNat * image.width.toNat)) := by
  rw [bytes, bytes, ← take_flatMap_bytes, square, Array.toList_extract, List.extract_eq_take_drop]
  rfl

end Image

namespace Png

/-- A decoded image is its first frame unless it is a strip. The first frame of a strip is a square
with the first bytes of the strip if it has fewer than `2 ^ 15` columns, and there is none
otherwise. The bounds of cells along a side are exact if it is shorter than `2 ^ 30`, and the last
one does not fit otherwise. The place of every position is exact, and that of a pixel, if the bytes
of the image can be held. -/
theorem decodeImage_frames {bytes : List UInt8} {image : Image}
    (decoded : decodeImage bytes = .ok image) :
    (¬ image.IsStrip → image.firstFrame? = some image) ∧
    (image.IsStrip →
      let columns := image.width.toNat
      (columns < 2 ^ 15 → ∃ frame, image.firstFrame? = some frame ∧
        frame.width = image.width ∧ frame.height = image.width ∧
        frame.bytes = image.bytes.take (4 * (columns * columns)) ∧ frame.Sized) ∧
      (2 ^ 15 ≤ columns → image.firstFrame? = none)) ∧
    (∀ side ∈ [image.width, image.height],
      (side.toNat < 2 ^ 30 → ∀ index ≤ 4,
        Fingerprint.bound? index side = some (index.toNat * side.toNat / 4)) ∧
      (2 ^ 30 ≤ side.toNat → Fingerprint.bound? 4 side = none)) ∧
    (4 * Image.area image.width image.height < Image.capacity →
      ∀ x < image.width.toNat, ∀ y < image.height.toNat,
        image.offset? x y = some (y * image.width.toNat + x) ∧
        y * image.width.toNat + x < image.pixels.size) := by
  obtain ⟨png, isPng, made⟩ := Outcome.bind_eq_ok.1 decoded
  obtain ⟨isWidth, -, sized⟩ := toImage_eq_ok made
  have wide : image.width ≠ 0 := isWidth ▸ (isWhole_of_decode isPng).header.wide
  refine ⟨Image.firstFrame?_of_not_isStrip, fun strip => ⟨fun narrow => ?_, fun broad => ?_⟩,
    fun side _ => ⟨(Fingerprint.bound?_eq_edge_iff side).2, Fingerprint.bound?_eq_none.2⟩,
    fun few x isColumn y isRow => ?_⟩
  · rw [Image.firstFrame?_of_isStrip wide strip, if_pos narrow]
    exact ⟨_, rfl, rfl, rfl, image.bytes_square, Image.sized_square sized strip⟩
  · rw [Image.firstFrame?_of_isStrip wide strip, if_neg (Nat.not_lt.2 broad)]
  · have held : image.Held := ⟨sized, few⟩
    rw [sized]
    exact ⟨held.offset?_eq isColumn isRow, Image.position_lt isColumn isRow⟩

/-- The first frame of a strip of two pixels is the upper one. -/
theorem decodeImage_frames_pixels :
    let strip : Image := { width := 1, height := 2, pixels := #[⟨1, 2, 3, 4⟩, ⟨5, 6, 7, 8⟩] }
    ∃ file, decodeImage file = .ok strip ∧ strip.IsStrip ∧
      ∃ frame, strip.firstFrame? = some frame ∧ frame.bytes = [1, 2, 3, 4] := by
  intro strip
  have isStrip : strip.IsStrip := ⟨by decide, by decide⟩
  have fits : (Zlib.encode (scanlines strip.width strip.bytes)).length < UInt32.size := by
    simp [strip, Image.bytes, Pixel.bytes, scanlines, rows, Zlib.encode, Flate.store,
      Flate.storedBlock, Flate.storedLimit, UInt32.size]
  obtain ⟨file, encoded⟩ : ∃ file, encodeImageWith Zlib.encode strip = .ok file :=
    exists_encodeWith Zlib.undoes_encode (by decide) (by decide) (by decide) fits
  have decoded := decodeImage_of_encodeImageWith Zlib.undoes_encode encoded fits
  obtain ⟨frame, isFrame, -, -, upper, -⟩ :=
    ((decodeImage_frames decoded).2.1 isStrip).1 (by decide)
  exact ⟨file, decoded, isStrip, frame, isFrame, upper.trans (by decide)⟩

end Png

end Blockwright
