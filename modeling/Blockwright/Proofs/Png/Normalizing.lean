import Blockwright.Proofs.Png.Pixels

/-!
# Normalizing images

An image file is its own normal form if its pixels have their own colors. The normal form of any
other one is written with such pixels and shows the same picture, so it is its own normal form as
well. There is none only if there is no image, or if one has a place outside its palette.
-/

namespace Blockwright

namespace Png

/-! ## Normal forms -/

/-- Whether the pixels of an image file have their own colors. -/
def IsNormal (bytes : List UInt8) : Prop :=
  ∃ png, decode bytes = .ok png ∧ (png.header.color = .rgb ∨ png.header.color = .rgba)

/-- Whether a word counts the compressed rows of the picture that a file without own colors
shows. -/
def FitsExpanded (compress : List UInt8 → List UInt8) (bytes : List UInt8) : Prop :=
  ∀ png image, decode bytes = .ok png → png.header.color.isTruecolor = false →
    png.toImage = .ok image → (compress (scanlines image.width image.bytes)).length < UInt32.size

/-- Whether an image has a place outside its palette. -/
def HasOutside (png : Png) : Prop :=
  png.header.color = .indexed ∧ ∃ sample, png.Packs sample ∧
    ∃ x < png.header.width.toNat, ∃ y < png.header.height.toNat,
      png.palette.length ≤ sample x y 0

theorem ColorType.isTruecolor_iff {color : ColorType} :
    color.isTruecolor = true ↔ color = .rgb ∨ color = .rgba := by
  cases color <;> simp [ColorType.isTruecolor]

section Normalizing

variable {compress : List UInt8 → List UInt8} {bytes file : List UInt8} {png : Png} {image : Image}

theorem isNormal_iff (decoded : decode bytes = .ok png) :
    IsNormal bytes ↔ png.header.color.isTruecolor = true := by
  rw [ColorType.isTruecolor_iff, IsNormal, decoded]
  simp

/-- A file whose pixels have their own colors is its own normal form. -/
theorem IsNormal.normalizeWith (normal : IsNormal bytes) :
    normalizeWith compress bytes = .ok bytes := by
  obtain ⟨png, decoded, color⟩ := normal
  simp [Png.normalizeWith, decoded, ColorType.isTruecolor_iff.2 color, bind, Except.bind, pure,
    Except.pure]

theorem normalizeWith_of_decode (decoded : decode bytes = .ok png)
    (other : png.header.color.isTruecolor = false) :
    normalizeWith compress bytes =
      png.toImage >>= fun image => encodeImageWith compress image := by
  simp [normalizeWith, decoded, other, bind, Except.bind]

theorem exists_normalForm (undone : Zlib.Undoes compress) (fits : FitsExpanded compress bytes)
    (decoded : decode bytes = .ok png) (other : png.header.color.isTruecolor = false)
    (made : png.toImage = .ok image) :
    ∃ file, normalizeWith compress bytes = .ok file ∧ IsNormal file ∧
      decodeImage file = .ok image := by
  obtain ⟨width, height, sized⟩ := toImage_eq_ok made
  have valid := (isWhole_of_decode decoded).header
  have wide : image.width ≠ 0 := width ▸ valid.wide
  have high : image.height ≠ 0 := height ▸ valid.high
  have imageFits := fits png image decoded other made
  obtain ⟨file, encoded⟩ := exists_encodeWith undone wide high sized.length_bytes imageFits
  have read := decode_of_encodeWith undone encoded imageFits
  refine ⟨file, ?_, ⟨_, read, .inr rfl⟩, ?_⟩
  · rw [normalizeWith_of_decode decoded other, made]
    exact encoded
  · rw [decodeImage, read]
    exact toImage_written_bytes wide sized.length_bytes

/-- A decoded image has no picture exactly if it has a place outside its palette. -/
theorem exists_toImage_eq_error (decoded : decode bytes = .ok png) :
    (∃ error, png.toImage = .error error) ↔ png.HasOutside := by
  constructor
  · rintro ⟨error, missing⟩
    obtain ⟨sample, packs⟩ := (isWhole_of_decode decoded).exists_packs
    cases pixels : png.pixels with
    | ok found =>
      obtain ⟨image, made, -⟩ := packs.exists_image pixels
      rw [missing] at made
      cases made
    | error fault =>
      obtain ⟨x, y, first, -⟩ := packs.exists_firstOutside pixels
      exact ⟨first.indexed, sample, packs, x, first.column, y, first.row, first.outside⟩
  · rintro ⟨indexed, sample, packs, x, isColumn, y, isRow, outside⟩
    cases pixels : png.pixels with
    | ok found =>
      obtain ⟨image, -, expands⟩ := packs.exists_image pixels
      have inside := (expands.shows x isColumn y isRow).lt_length indexed _ (mem_samplesAt _ _ _ _)
      exact absurd outside (Nat.not_le.2 inside)
    | error fault => exact ⟨fault, toImage_eq_error pixels⟩

theorem normalForm_of_normalizeWith (undone : Zlib.Undoes compress)
    (fits : FitsExpanded compress bytes) (normalized : normalizeWith compress bytes = .ok file) :
    IsNormal file ∧ decodeImage file = decodeImage bytes ∧ (file = bytes ↔ IsNormal bytes) := by
  by_cases normal : IsNormal bytes
  · rw [normal.normalizeWith] at normalized
    cases normalized
    exact ⟨normal, rfl, iff_of_true rfl normal⟩
  · obtain ⟨png, decoded, rest⟩ := Outcome.bind_eq_ok.1 normalized
    have other : png.header.color.isTruecolor = false := by
      simpa [isNormal_iff decoded] using normal
    rw [normalizeWith_of_decode decoded other] at normalized
    obtain ⟨image, made, -⟩ := Outcome.bind_eq_ok.1 normalized
    obtain ⟨anew, isAnew, isNormal, picture⟩ := exists_normalForm undone fits decoded other made
    rw [← normalizeWith_of_decode decoded other, isAnew] at normalized
    cases normalized
    refine ⟨isNormal, ?_, iff_of_false (fun same => normal (same ▸ isNormal)) normal⟩
    rw [picture, decodeImage, decoded]
    exact made.symm

/-- An image has no normal form exactly if it has a place outside its palette. -/
theorem exists_normalizeWith_eq_error (undone : Zlib.Undoes compress)
    (fits : FitsExpanded compress bytes) (decoded : decode bytes = .ok png) :
    (∃ error, normalizeWith compress bytes = .error error) ↔ png.HasOutside := by
  cases truecolor : png.header.color.isTruecolor with
  | true =>
    have normal := (isNormal_iff decoded).2 truecolor
    constructor
    · rintro ⟨error, failed⟩
      rw [normal.normalizeWith] at failed
      cases failed
    · rintro ⟨indexed, -⟩
      rw [indexed] at truecolor
      cases truecolor
  | false =>
    rw [← exists_toImage_eq_error decoded]
    cases made : png.toImage with
    | ok image =>
      obtain ⟨file, normalized, -⟩ := exists_normalForm undone fits decoded truecolor made
      simp [normalized]
    | error error =>
      rw [normalizeWith_of_decode decoded truecolor, made]
      simp [bind, Except.bind]

/-- If decoding undoes a way to compress, and a word counts the compressed rows of the picture, a
normal form has pixels with their own colors, shows the same picture and is its own normal form. It
is the file itself exactly if that was normal. There is none exactly if there is no image, or if a
place is outside the palette. -/
theorem normalizeWith_normal (undone : Zlib.Undoes compress) (fits : FitsExpanded compress bytes) :
    (∀ file, normalizeWith compress bytes = .ok file →
      IsNormal file ∧ decodeImage file = decodeImage bytes ∧
        normalizeWith compress file = .ok file ∧ (file = bytes ↔ IsNormal bytes)) ∧
    ((∃ error, normalizeWith compress bytes = .error error) ↔
      (∃ error, decode bytes = .error error) ∨
        ∃ png, decode bytes = .ok png ∧ png.HasOutside) := by
  constructor
  · intro file normalized
    obtain ⟨normal, picture, same⟩ := normalForm_of_normalizeWith undone fits normalized
    exact ⟨normal, picture, normal.normalizeWith, same⟩
  · cases decoded : decode bytes with
    | error error => simp [normalizeWith, decoded, bind, Except.bind]
    | ok png => simp [exists_normalizeWith_eq_error undone fits decoded]

end Normalizing

/-- One pixel whose color is the last of two in a palette, with an opacity. -/
def Layout.indexedPixel : Layout where
  header := { writtenHeader 1 1 with color := .indexed }.bytes
  body := [
    { kind := Chunk.palette, data := [1, 2, 3, 4, 5, 6] },
    { kind := Chunk.transparency, data := [0, 128] },
    { kind := Chunk.imageData, data := Zlib.encode [0, 1] }]
  ending := []
  trailing := []
  headerFramed := ⟨rfl, by decide⟩
  bodyFramed := by
    simp only [List.forall_mem_cons, List.not_mem_nil, false_implies, implies_true, and_true]
    exact ⟨⟨rfl, by decide⟩, ⟨rfl, by decide⟩, ⟨rfl, by cbv⟩⟩
  endingFramed := framed_ending
  noHeader := by simp [Chunk.imageData, Chunk.header, Chunk.palette, Chunk.transparency]
  noEnding := by simp [Chunk.imageData, Chunk.ending, Chunk.palette, Chunk.transparency]

/-- What is read of it. -/
def indexedPixel : Png where
  header := { writtenHeader 1 1 with color := .indexed }
  raw := [1]
  palette := [⟨1, 2, 3⟩, ⟨4, 5, 6⟩]
  transparency := some [0, 128]

theorem Layout.decode_indexedPixel : decode indexedPixel.bytes = .ok Png.indexedPixel := by
  rw [decode_bytes]
  cbv

theorem toImage_indexedPixel :
    indexedPixel.toImage = .ok { width := 1, height := 1, pixels := #[⟨4, 5, 6, 128⟩] } := by
  cbv

/-- The normal form of a pixel from a palette is another file, with the color that it has there. -/
theorem normalizeWith_normal_pixel :
    ∃ file, normalizeWith Zlib.encode Layout.indexedPixel.bytes = .ok file ∧ IsNormal file ∧
      decodeImage file = .ok { width := 1, height := 1, pixels := #[⟨4, 5, 6, 128⟩] } ∧
      normalizeWith Zlib.encode file = .ok file ∧ file ≠ Layout.indexedPixel.bytes := by
  have fits : FitsExpanded Zlib.encode Layout.indexedPixel.bytes := by
    intro png image decoded _ made
    rw [Layout.decode_indexedPixel] at decoded
    cases decoded
    rw [toImage_indexedPixel] at made
    cases made
    cbv
  have other : ¬ IsNormal Layout.indexedPixel.bytes := by
    rw [isNormal_iff Layout.decode_indexedPixel]
    decide
  obtain ⟨file, normalized, -, picture⟩ := exists_normalForm Zlib.undoes_encode fits
    Layout.decode_indexedPixel rfl toImage_indexedPixel
  obtain ⟨normal, -, again, same⟩ :=
    (normalizeWith_normal Zlib.undoes_encode fits).1 file normalized
  exact ⟨file, normalized, normal, picture, again, fun unchanged => other (same.1 unchanged)⟩

end Png

end Blockwright
