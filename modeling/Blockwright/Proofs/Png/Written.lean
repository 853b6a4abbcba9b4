import Blockwright.Proofs.Png.Validation

/-!
# Written images that are accepted

Whatever is read of a written image, its header is the one that was written, because it stands in
front and no other is accepted behind it. If nothing keeps the image out, it can be read and obeys
the rules for textures.
-/

namespace Blockwright

namespace Png

/-- The header of a written image is the one that was written. -/
theorem header_of_encodeWith {compress : List UInt8 → List UInt8} {width height : UInt32}
    {bytes file : List UInt8} (encoded : encodeWith compress width height bytes = .ok file)
    {png : Png} (decoded : decode file = .ok png) : png.header = writtenHeader width height := by
  obtain ⟨⟨wide, high⟩, -, -, rfl⟩ := encodeWith_eq_ok.1 encoded
  rw [decode_signature, chunks, List.flatMap_cons, Contents.readAll_bytes
    (framed_writtenHeader width height) (read_writtenHeader wide high), if_neg (by simp)] at decoded
  obtain ⟨contents, reads, made⟩ := Outcome.bind_eq_ok.1 decoded
  have kept := Contents.keeps_readAll
    (fun hasHeader next => (Contents.header_of_read next hasHeader).2) rfl reads
  rw [(ofContents_eq_ok made).1.1] at kept
  exact Option.some.inj kept

end Png

/-! ## Accepted textures -/

/-- Whether bytes are an image with eight bits each for red, green, blue and alpha, of at least
sixteen columns and rows, that is seen and not of one color. -/
def Png.IsPresentable (bytes : List UInt8) : Prop :=
  ∃ png image, decode bytes = .ok png ∧ png.header.color = .rgba ∧ png.header.depth = .eight ∧
    png.toImage = .ok image ∧ 16 ≤ png.header.width ∧ 16 ≤ png.header.height ∧
    (∃ pixel ∈ image.pixels, 0 < pixel.alpha) ∧
    ∃ first ∈ image.pixels, ∃ second ∈ image.pixels, first ≠ second

/-- A written image that is accepted can be presented. -/
theorem Png.isPresentable_of_encodeWith {compress : List UInt8 → List UInt8} {width height : UInt32}
    {bytes file : List UInt8} (encoded : encodeWith compress width height bytes = .ok file)
    (loadable : IsLoadable file) : IsPresentable file := by
  obtain ⟨png, image, decoded, made, -, large, tall, ⟨pixel, isPixel, visible⟩, varied⟩ := loadable
  have header := header_of_encodeWith encoded decoded
  exact ⟨png, image, decoded, by rw [header]; rfl, by rw [header]; rfl, made, large, tall,
    ⟨pixel, isPixel, UInt8.pos_iff_ne_zero.2 visible⟩, varied⟩

/-- Whether images with given sides are written and read back. -/
structure Png.Keeps (compress : List UInt8 → List UInt8) (width height : UInt32) : Prop where
  undone : Zlib.Undoes compress
  fits : ∀ bytes : List UInt8, bytes.length = 4 * Image.area width height →
    (compress (scanlines width bytes)).length < UInt32.size

/-- A file has 57 bytes besides the compressed rows. -/
theorem Png.length_of_encodeWith {compress : List UInt8 → List UInt8} {width height : UInt32}
    {bytes file : List UInt8} (encoded : encodeWith compress width height bytes = .ok file) :
    file.length = 57 + (compress (scanlines width bytes)).length := by
  obtain ⟨-, -, -, rfl⟩ := encodeWith_eq_ok.1 encoded
  simp [chunks, Chunk.bytes, Chunk.header, Chunk.imageData, Chunk.ending, Header.bytes, signature]
  omega

/-- Few rows keep an image small, however they are stored. -/
theorem Png.dataSize_writtenHeader_le {width height : UInt32} (narrow : width ≤ 64)
    (low : height ≤ 64) : (writtenHeader width height).dataSize ≤ 64 * (4 * 64 + 1) := by
  rw [Header.dataSize, stride_writtenHeader]
  have columns : width.toNat ≤ 64 := UInt32.le_iff_toNat_le.1 narrow
  have rows : height.toNat ≤ 64 := UInt32.le_iff_toNat_le.1 low
  exact Nat.mul_le_mul rows (by omega)

/-- Stored rows are read back, if a word counts twice their bytes. -/
theorem Png.keeps_encode {width height : UInt32} (wide : width ≠ 0)
    (small : 2 * (writtenHeader width height).dataSize + 11 < UInt32.size) :
    Keeps Zlib.encode width height where
  undone := Zlib.undoes_encode
  fits bytes length := by
    have stored := Zlib.length_encode_le (scanlines width bytes)
    rw [length_scanlines wide length] at stored
    exact stored.trans_lt small

/-- Whether an image has one pixel per position, at least sixteen columns and rows, and is seen and
not of one color. -/
structure Image.IsPresentable (image : Image) : Prop where
  sized : image.Sized
  wide : 16 ≤ image.width
  high : 16 ≤ image.height
  seen : ∃ pixel ∈ image.pixels, pixel.isVisible = true
  varied : ∃ first ∈ image.pixels, ∃ second ∈ image.pixels, first ≠ second

namespace Image.IsPresentable

variable {image : Image}

/-- An image that can be presented obeys every rule whose violation is an error. -/
theorem obeyed (presentable : image.IsPresentable) {png : Png}
    (truecolor : png.header.color.isTruecolor = true) {rule : TextureRule}
    (isError : rule ≠ .gridAlignment) : rule.Obeyed png image := by
  cases rule with
  | colorType => exact TextureRule.isTruecolor_iff_byte.1 truecolor
  | minimumSize => exact ⟨presentable.wide, presentable.high⟩
  | alpha =>
    obtain ⟨pixel, isPixel, visible⟩ := presentable.seen
    exact ⟨pixel, isPixel, bne_iff_ne.1 visible⟩
  | distinctValues => exact presentable.varied
  | gridAlignment => exact absurd rfl isError

/-- An image that can be presented is written and read back, and its file is accepted. -/
theorem exists_encodeWith {compress : List UInt8 → List UInt8} (presentable : image.IsPresentable)
    (keeps : Png.Keeps compress image.width image.height) (path : String) :
    ∃ file validation, Png.encodeImageWith compress image = .ok file ∧
      Png.decode file = .ok (Png.written image.width image.height image.bytes) ∧
      Png.decodeImage file = .ok image ∧
      Validation.ofBytes? path file = some validation ∧ validation.valid = true := by
  have wide : image.width ≠ 0 := by
    intro none
    have wide := presentable.wide
    simp [none] at wide
  have high : image.height ≠ 0 := by
    intro none
    have high := presentable.high
    simp [none] at high
  have length := presentable.sized.length_bytes
  have fits := keeps.fits image.bytes length
  obtain ⟨file, encoded⟩ := Png.exists_encodeWith keeps.undone wide high length fits
  have decoded := Png.decode_of_encodeWith keeps.undone encoded fits
  have made := Png.toImage_written_bytes wide length
  refine ⟨file, _, encoded, decoded, ?_, Validation.ofBytes?_of_toImage path decoded made, ?_⟩
  · rw [Png.decodeImage, decoded]
    exact made
  · rw [Validation.valid_ofImage, Validation.hasErrors_ofImage.2 fun _ => presentable.obeyed rfl]
    rfl

end Image.IsPresentable

end Blockwright
