import Blockwright.Png.Encode
import Blockwright.Proofs.Flate.Expansion
import Blockwright.Proofs.Png.Decoded
import Blockwright.Proofs.Png.Filters

/-!
# Reading written images back

The chunks of an image are read one behind the other, its header, its image data and its end. The
image data inflates to the scanlines, which are restored to the bytes that were written.
-/

namespace Blockwright

namespace Png

/-! ## Chunks -/

namespace Chunk

/-- A chunk whose length can be written: four bytes name its kind and a word counts its data. -/
structure Framed (chunk : Chunk) : Prop where
  kind : chunk.kind.length = 4
  data : chunk.data.length < UInt32.size

variable {chunk : Chunk}

theorem toNat_length (framed : chunk.Framed) :
    (UInt32.ofNat chunk.data.length).toNat = chunk.data.length := by
  rw [UInt32.toNat_ofNat']
  exact Nat.mod_eq_of_lt framed.data

theorem length_bytes (framed : chunk.Framed) : chunk.bytes.length = chunk.data.length + 12 := by
  simp only [bytes, List.length_append, Bytes.length_bigEndian, framed.kind]
  omega

/-- A chunk is found in front of whatever follows it, with the checksum that is stated. -/
theorem split_stated (framed : chunk.Framed) (offset : Nat) (stated : UInt32)
    (rest : List UInt8) :
    split offset (Bytes.bigEndian (UInt32.ofNat chunk.data.length) ++
      (chunk.kind ++ (chunk.data ++ (Bytes.bigEndian stated ++ rest)))) =
        .ok (chunk, stated, rest) := by
  have kindLength := framed.kind
  have room : ¬ (Bytes.bigEndian (UInt32.ofNat chunk.data.length) ++
      (chunk.kind ++ (chunk.data ++ (Bytes.bigEndian stated ++ rest)))).length <
        chunk.data.length + 12 := by
    simp only [List.length_append, Bytes.length_bigEndian, kindLength]
    omega
  have behind : (chunk.kind ++ (chunk.data ++ (Bytes.bigEndian stated ++ rest))).drop
      (4 + chunk.data.length) = Bytes.bigEndian stated ++ rest := by
    rw [← List.append_assoc]
    exact List.drop_left' (by simp [kindLength])
  simp only [split, Bytes.wordAt_bigEndian, toNat_length framed, if_neg room,
    List.drop_left' (Bytes.length_bigEndian _), behind, List.take_left' kindLength,
    List.drop_left' kindLength, List.take_left]

theorem split_bytes (framed : chunk.Framed) (offset : Nat) (rest : List UInt8) :
    split offset (chunk.bytes ++ rest) = .ok (chunk, chunk.checksum, rest) := by
  simp only [bytes, List.append_assoc]
  exact split_stated framed offset chunk.checksum rest

/-- A chunk is read with its own checksum. -/
theorem read_bytes (framed : chunk.Framed) (offset : Nat) (rest : List UInt8) :
    read offset (chunk.bytes ++ rest) = .ok (chunk, rest) := by
  simp [read, split_bytes framed]

end Chunk

/-! ## The three chunks -/

namespace Contents

/-- A chunk in front of a byte string is read before what follows it. -/
theorem readAll_chunk {chunk : Chunk} (framed : chunk.Framed) (offset : Nat) (contents : Contents)
    (rest : List UInt8) :
    readAll offset contents (chunk.bytes ++ rest) = (do
      let next ← contents.read chunk
      if next.ended then .ok next else readAll (offset + chunk.bytes.length) next rest) := by
  have length := Chunk.length_bytes framed
  have nonempty : (chunk.bytes ++ rest).isEmpty = false := by
    cases form : chunk.bytes with
    | nil => simp [form] at length
    | cons byte others => rfl
  rw [readAll, nonempty, if_neg (by decide)]
  split
  · next error found =>
    rw [Chunk.read_bytes framed] at found
    cases found
  · next found =>
    rw [Chunk.read_bytes framed] at found
    cases found
    cases contents.read chunk with
    | error error => rfl
    | ok next => simp only [bind, Except.bind, length, Nat.add_comm, Nat.add_left_comm]

/-- Reading goes on behind a chunk unless it was the end. -/
theorem readAll_bytes {chunk : Chunk} (framed : chunk.Framed) {contents next : Contents}
    (reads : contents.read chunk = .ok next) (offset : Nat) (rest : List UInt8) :
    readAll offset contents (chunk.bytes ++ rest) =
      if next.ended then .ok next else readAll (offset + chunk.bytes.length) next rest := by
  rw [readAll_chunk framed, reads]
  rfl

end Contents

theorem Header.ofBytes_bytes_writtenHeader {width height : UInt32} (wide : width ≠ 0)
    (high : height ≠ 0) :
    Header.ofBytes (writtenHeader width height).bytes = .ok (writtenHeader width height) := by
  have widthWord := Bytes.wordAt_bigEndian width []
  have heightWord := Bytes.wordAt_bigEndian height []
  simp only [Bytes.bigEndian, List.append_nil, Bytes.wordAt] at widthWord heightWord
  have depth : Depth.ofByte? (UInt8.ofNat Depth.eight.bits) = some .eight := by decide
  simp [Header.bytes, writtenHeader, Bytes.bigEndian, Header.ofBytes, widthWord, heightWord, wide,
    high, Header.readKind, ColorType.ofByte?_byte, depth, ColorType.allows, pure, Except.pure,
    Option.filter]

theorem framed_ending : Chunk.Framed { kind := Chunk.ending, data := [] } :=
  ⟨rfl, by simp [UInt32.size]⟩

theorem framed_writtenHeader (width height : UInt32) :
    Chunk.Framed { kind := Chunk.header, data := (writtenHeader width height).bytes } :=
  ⟨rfl, by simp [Header.bytes, UInt32.size]⟩

theorem read_writtenHeader {width height : UInt32} (wide : width ≠ 0) (high : height ≠ 0) :
    Contents.read {} { kind := Chunk.header, data := (writtenHeader width height).bytes } =
      .ok { header := some (writtenHeader width height) } := by
  simp [Contents.read, Header.ofBytes_bytes_writtenHeader wide high, Except.map]

/-- What is read of a written image. -/
def writtenContents (width height : UInt32) (data : List UInt8) : Contents :=
  { header := some (writtenHeader width height)
    data
    ended := true }

theorem readAll_chunks {width height : UInt32} {data : List UInt8} (wide : width ≠ 0)
    (high : height ≠ 0) (fits : data.length < UInt32.size) (offset : Nat) :
    Contents.readAll offset {} ((chunks width height data).flatMap Chunk.bytes) =
      .ok (writtenContents width height data) := by
  have dataFramed : Chunk.Framed { kind := Chunk.imageData, data } := ⟨rfl, fits⟩
  simp only [chunks, List.flatMap_cons, List.flatMap_nil]
  rw [Contents.readAll_bytes (framed_writtenHeader width height) (read_writtenHeader wide high),
    if_neg (by simp), Contents.readAll_bytes dataFramed rfl, if_neg (by simp),
    Contents.readAll_bytes framed_ending rfl, if_pos rfl]
  rfl

/-! ## Rows -/

theorem flatten_rows {stride count : Nat} {bytes : List UInt8}
    (length : bytes.length = count * stride) : (rows stride count bytes).flatten = bytes := by
  induction count generalizing bytes with
  | zero =>
    have none : bytes = [] := by simpa using length
    simp [rows, none]
  | succ count ih =>
    have lengthRest : (bytes.drop stride).length = count * stride := by
      rw [List.length_drop, length, Nat.succ_mul]
      omega
    rw [rows, List.flatten_cons, ih lengthRest, List.take_append_drop]

theorem length_of_mem_rows {stride count : Nat} {bytes row : List UInt8}
    (length : bytes.length = count * stride) (isRow : row ∈ rows stride count bytes) :
    row.length = stride := by
  induction count generalizing bytes with
  | zero => simp [rows] at isRow
  | succ count ih =>
    rw [Nat.succ_mul] at length
    rw [rows, List.mem_cons] at isRow
    rcases isRow with rfl | isRow
    · rw [List.length_take, length]
      omega
    · refine ih ?_ isRow
      rw [List.length_drop, length]
      omega

theorem length_rows (stride count : Nat) (bytes : List UInt8) :
    (rows stride count bytes).length = count := by
  induction count generalizing bytes with
  | zero => rfl
  | succ count ih => simp [rows, ih]

theorem length_flatMap_plain {stride : Nat} {rows : List (List UInt8)}
    (lengths : ∀ row ∈ rows, row.length = stride) :
    (rows.flatMap fun row => Filter.plain.byte :: row).length = rows.length * (stride + 1) := by
  rw [← filterRows_plain 1 [], length_filterRows (List.forall_mem_map.2 lengths), List.length_map]

theorem unfilter_plain {stride reach : Nat} (positive : 0 < reach) {rows : List (List UInt8)}
    (lengths : ∀ row ∈ rows, row.length = stride) :
    unfilter stride reach (rows.flatMap fun row => Filter.plain.byte :: row) =
      .ok rows.flatten := by
  rw [← filterRows_plain reach [], unfilter_filterRows positive (List.forall_mem_map.2 lengths),
    List.flatMap_map, List.flatMap_id']

/-! ## Decoding -/

theorem stride_writtenHeader (width height : UInt32) :
    (writtenHeader width height).stride = 4 * width.toNat := by
  simp only [Header.stride, writtenHeader, ColorType.channels, Depth.bits]
  omega

theorem length_row_of_area {width height : UInt32} {bytes : List UInt8}
    (length : bytes.length = 4 * Image.area width height) :
    bytes.length = height.toNat * (4 * width.toNat) := by
  rw [length, Image.area, Nat.mul_left_comm, Nat.mul_comm height.toNat, Nat.mul_assoc,
    Nat.mul_left_comm]

theorem stride_pos {width : UInt32} (wide : width ≠ 0) : 0 < 4 * width.toNat := by
  have widthPositive : width.toNat ≠ 0 := fun zero => wide (UInt32.toNat_inj.1 zero)
  omega

theorem length_div_stride {width height : UInt32} {bytes : List UInt8} (wide : width ≠ 0)
    (length : bytes.length = 4 * Image.area width height) :
    bytes.length / (4 * width.toNat) = height.toNat := by
  rw [length_row_of_area length]
  exact Nat.mul_div_cancel _ (stride_pos wide)

theorem scanlines_eq {width height : UInt32} {bytes : List UInt8} (wide : width ≠ 0)
    (length : bytes.length = 4 * Image.area width height) :
    scanlines width bytes =
      (rows (4 * width.toNat) height.toNat bytes).flatMap fun row => Filter.plain.byte :: row := by
  simp only [scanlines, length_div_stride wide length]

theorem length_scanlines {width height : UInt32} {bytes : List UInt8} (wide : width ≠ 0)
    (length : bytes.length = 4 * Image.area width height) :
    (scanlines width bytes).length = (writtenHeader width height).dataSize := by
  have lengths : ∀ row ∈ rows (4 * width.toNat) height.toNat bytes, row.length = 4 * width.toNat :=
    fun row isRow => length_of_mem_rows (length_row_of_area length) isRow
  rw [scanlines_eq wide length, length_flatMap_plain lengths, length_rows,
    Header.dataSize, stride_writtenHeader]
  rfl

theorem dataSize_lt {width height : UInt32} {bytes : List UInt8}
    (length : bytes.length = 4 * Image.area width height) (held : bytes.length < 2 ^ 63) :
    (writtenHeader width height).dataSize + 1 < addressLimit := by
  have rowsLength := length_row_of_area length
  have rows : height.toNat < UInt32.size := height.toNat_lt
  have split : height.toNat * (4 * width.toNat + 1) =
      height.toNat * (4 * width.toNat) + height.toNat := Nat.mul_succ _ _
  have sameHeight : (writtenHeader width height).height = height := rfl
  rw [Header.dataSize, stride_writtenHeader, sameHeight]
  simp only [UInt32.size, addressLimit, UInt64.size] at rows ⊢
  omega

/-- The image that is read of a written one. -/
def written (width height : UInt32) (bytes : List UInt8) : Png :=
  { header := writtenHeader width height, raw := bytes, palette := [], transparency := none }

theorem ofContents_writtenContents {compress : List UInt8 → List UInt8}
    (undone : Zlib.Undoes compress) {width height : UInt32} {bytes : List UInt8}
    (wide : width ≠ 0) (length : bytes.length = 4 * Image.area width height)
    (short : (writtenHeader width height).dataSize + 1 < addressLimit) :
    ofContents (writtenContents width height (compress (scanlines width bytes))) =
      .ok (written width height bytes) := by
  have dataSize := length_scanlines wide length
  have complete : (writtenContents width height (compress (scanlines width bytes))).complete =
      .ok (writtenHeader width height) := by
    simp [Contents.complete, writtenContents, undone.ne_nil, writtenHeader]
  have inflated : inflateData (writtenHeader width height).dataSize
      (writtenContents width height (compress (scanlines width bytes))).data =
        .ok (scanlines width bytes) := by
    have decoded := undone ((writtenHeader width height).dataSize + 1) (scanlines width bytes)
      (by omega)
    simp [inflateData, if_neg (Nat.not_le.2 short), writtenContents, decoded]
  have lengths : ∀ row ∈ rows (4 * width.toNat) height.toNat bytes, row.length = 4 * width.toNat :=
    fun row isRow => length_of_mem_rows (length_row_of_area length) isRow
  have restored : unfilter (writtenHeader width height).stride (writtenHeader width height).reach
      (scanlines width bytes) = .ok bytes := by
    have positive : 0 < (writtenHeader width height).reach := by
      rw [Header.reach]
      omega
    rw [stride_writtenHeader, scanlines_eq wide length, unfilter_plain positive lengths,
      flatten_rows (length_row_of_area length)]
  have bounded : ¬ addressLimit ≤ (writtenHeader width height).dataSize := by omega
  simp only [ofContents, complete, bind, Except.bind, inflated, if_neg bounded, dataSize, ne_eq,
    not_true, if_false, restored, pure, Except.pure]
  rfl

/-- A written image whose compressed rows can be counted by a word is decoded as it was. -/
theorem decode_signature_chunks {compress : List UInt8 → List UInt8}
    (undone : Zlib.Undoes compress) {width height : UInt32} {bytes : List UInt8} (wide : width ≠ 0)
    (high : height ≠ 0) (length : bytes.length = 4 * Image.area width height)
    (short : (writtenHeader width height).dataSize + 1 < addressLimit)
    (fits : (compress (scanlines width bytes)).length < UInt32.size) :
    decode (signature ++
        (chunks width height (compress (scanlines width bytes))).flatMap Chunk.bytes) =
      .ok (written width height bytes) := by
  rw [decode_signature, readAll_chunks wide high fits]
  exact ofContents_writtenContents undone wide length short

/-! ## Pixels -/

theorem exists_channels {bytes : List UInt8} {count : Nat}
    (length : bytes.length = 4 * (count + 1)) :
    ∃ red green blue alpha others, bytes = red :: green :: blue :: alpha :: others ∧
      others.length = 4 * count := by
  rcases bytes with _ | ⟨red, _ | ⟨green, _ | ⟨blue, _ | ⟨alpha, others⟩⟩⟩⟩
  all_goals simp only [List.length_cons, List.length_nil] at length
  · omega
  · omega
  · omega
  · omega
  · exact ⟨red, green, blue, alpha, others, rfl, by omega⟩

theorem pixelsOfSamples_written {width height : UInt32} {bytes : List UInt8} {count : Nat}
    {row : List UInt8} (length : row.length = 4 * count) :
    (written width height bytes).pixelsOfSamples count (row.map UInt8.toNat) =
      .ok (Pixel.listOfBytes row) := by
  induction count generalizing row with
  | zero =>
    have none : row = [] := by simpa using length
    simp [none, pixelsOfSamples, Pixel.listOfBytes]
  | succ count ih =>
    obtain ⟨red, green, blue, alpha, row, rfl, others⟩ := exists_channels length
    have first : (written width height bytes).pixel
        [red.toNat, green.toNat, blue.toNat, alpha.toNat] = .ok { red, green, blue, alpha } := by
      simp [pixel, written, writtenHeader, Depth.toByte]
    simp only [pixelsOfSamples, List.map_cons]
    rw [show (written width height bytes).header.color.channels = 4 from rfl]
    simp only [List.take_succ_cons, List.take_zero, List.drop_succ_cons, List.drop_zero, first,
      ih others]
    rfl

theorem listOfBytes_append {count : Nat} {front rest : List UInt8}
    (length : front.length = 4 * count) :
    Pixel.listOfBytes (front ++ rest) = Pixel.listOfBytes front ++ Pixel.listOfBytes rest := by
  induction count generalizing front with
  | zero =>
    have none : front = [] := by simpa using length
    simp [none, Pixel.listOfBytes]
  | succ count ih =>
    obtain ⟨red, green, blue, alpha, front, rfl, others⟩ := exists_channels length
    simp only [List.cons_append, Pixel.listOfBytes, ih others]

theorem listOfBytes_flatten {count : Nat} {rows : List (List UInt8)}
    (lengths : ∀ row ∈ rows, row.length = 4 * count) :
    Pixel.listOfBytes rows.flatten = (rows.map Pixel.listOfBytes).flatten := by
  induction rows with
  | nil => rfl
  | cons row rows ih =>
    have first := lengths row (by simp)
    have others : ∀ row ∈ rows, row.length = 4 * count := fun row isRow =>
      lengths row (by simp [isRow])
    rw [List.flatten_cons, listOfBytes_append first, ih others, List.map_cons, List.flatten_cons]

theorem length_listOfBytes {count : Nat} {bytes : List UInt8} (length : bytes.length = 4 * count) :
    (Pixel.listOfBytes bytes).length = count := by
  induction count generalizing bytes with
  | zero =>
    have none : bytes = [] := by simpa using length
    simp [none, Pixel.listOfBytes]
  | succ count ih =>
    obtain ⟨red, green, blue, alpha, bytes, rfl, others⟩ := exists_channels length
    simp [Pixel.listOfBytes, ih others]

theorem toImage_written {width height : UInt32} {bytes : List UInt8} (wide : width ≠ 0)
    (length : bytes.length = 4 * Image.area width height) :
    (written width height bytes).toImage =
      .ok { width, height, pixels := (Pixel.listOfBytes bytes).toArray } := by
  have rowsLength := length_row_of_area length
  have lengths : ∀ row ∈ rows (4 * width.toNat) height.toNat bytes, row.length = 4 * width.toNat :=
    fun row isRow => length_of_mem_rows rowsLength isRow
  have perRow : (rows (4 * width.toNat) height.toNat bytes).mapM (fun row =>
      (written width height bytes).pixelsOfSamples width.toNat (row.map UInt8.toNat)) =
        .ok ((rows (4 * width.toNat) height.toNat bytes).map Pixel.listOfBytes) :=
    Outcome.mapM_eq_ok_map fun row isRow => pixelsOfSamples_written (lengths row isRow)
  have pixels : (written width height bytes).pixels = .ok (Pixel.listOfBytes bytes) := by
    rw [Png.pixels]
    rw [show (written width height bytes).header = writtenHeader width height from rfl,
      stride_writtenHeader, show (written width height bytes).raw = bytes from rfl,
      length_div_stride wide length]
    simp only [writtenHeader, Depth.samples]
    rw [perRow]
    simp only [bind, Except.bind, pure, Except.pure, ← listOfBytes_flatten lengths,
      flatten_rows rowsLength]
  simp only [toImage, pixels, bind, Except.bind]
  rw [show (written width height bytes).header = writtenHeader width height from rfl]
  simp [writtenHeader, length_listOfBytes length, pure, Except.pure]

/-- The picture of a written image is the image. -/
theorem toImage_written_bytes {image : Image} (wide : image.width ≠ 0)
    (length : image.bytes.length = 4 * Image.area image.width image.height) :
    (written image.width image.height image.bytes).toImage = .ok image := by
  rw [toImage_written wide length, Image.bytes, Pixel.listOfBytes_flatMap_bytes]

/-! ## Encoding -/

section Encoding

variable {compress : List UInt8 → List UInt8} {width height : UInt32} {bytes file : List UInt8}

/-- An image is written exactly if it has sides, and four bytes for each position, which can be
counted by a word of 64 bits. -/
theorem encodeWith_eq_ok :
    encodeWith compress width height bytes = .ok file ↔
      (width ≠ 0 ∧ height ≠ 0) ∧ 4 * Image.area width height < UInt64.size ∧
        bytes.length = 4 * Image.area width height ∧
        file = signature ++
          (chunks width height (compress (scanlines width bytes))).flatMap Chunk.bytes := by
  rw [encodeWith, ← not_or]
  split
  · next side => simp [side]
  · next sides =>
    cases count : Image.byteCount? width height with
    | none =>
      have large := Image.byteCount?_eq_none.1 count
      simp [Nat.not_lt.2 large]
    | some expected =>
      obtain ⟨rfl, small⟩ := Image.byteCount?_eq_some.1 count
      by_cases length : bytes.length = 4 * Image.area width height
      · simp [sides, small, length, eq_comm]
      · simp [length]

/-- Writing an image fails without a side, otherwise if a word cannot count its bytes, and otherwise
with a wrong number of bytes. -/
theorem encodeWith_eq_error {error : Error} :
    encodeWith compress width height bytes = .error error ↔
      (width = 0 ∨ height = 0) ∧ error = .zeroSize ∨
      (width ≠ 0 ∧ height ≠ 0) ∧ UInt64.size ≤ 4 * Image.area width height ∧ error = .overflow ∨
      (width ≠ 0 ∧ height ≠ 0) ∧ 4 * Image.area width height < UInt64.size ∧
        bytes.length ≠ 4 * Image.area width height ∧
        error = .bufferSize width height (4 * Image.area width height) bytes.length := by
  rw [encodeWith, ← not_or]
  split
  · next side => simp [side, eq_comm]
  · next sides =>
    cases count : Image.byteCount? width height with
    | none =>
      have large := Image.byteCount?_eq_none.1 count
      simp [sides, large, Nat.not_lt.2 large, eq_comm]
    | some expected =>
      obtain ⟨rfl, small⟩ := Image.byteCount?_eq_some.1 count
      by_cases length : bytes.length = 4 * Image.area width height
      · simp [sides, length, Nat.not_le.2 small]
      · simp [sides, small, length, Nat.not_le.2 small, eq_comm]

/-- Memory holds the bytes of an image if a word counts its compressed rows, because these are not
much shorter. -/
theorem held_of_fits (undone : Zlib.Undoes compress) (wide : width ≠ 0)
    (length : bytes.length = 4 * Image.area width height)
    (fits : (compress (scanlines width bytes)).length < UInt32.size) : bytes.length < 2 ^ 63 := by
  have compressed := undone.length_le (scanlines width bytes)
  have whole : bytes.length ≤ (scanlines width bytes).length := by
    rw [length_scanlines wide length, Header.dataSize, stride_writtenHeader,
      length_row_of_area length]
    exact Nat.mul_le_mul_left _ (Nat.le_succ _)
  simp only [UInt32.size] at fits
  omega

/-- An image is written if a word counts its compressed rows. -/
theorem exists_encodeWith (undone : Zlib.Undoes compress) (wide : width ≠ 0) (high : height ≠ 0)
    (length : bytes.length = 4 * Image.area width height)
    (fits : (compress (scanlines width bytes)).length < UInt32.size) :
    ∃ file, encodeWith compress width height bytes = .ok file := by
  have held := held_of_fits undone wide length fits
  rw [length] at held
  exact ⟨_, encodeWith_eq_ok.2 ⟨⟨wide, high⟩, held.trans (by decide), length, rfl⟩⟩

/-- A written image is read back if a word counts its compressed rows. -/
theorem decode_of_encodeWith (undone : Zlib.Undoes compress)
    (encoded : encodeWith compress width height bytes = .ok file)
    (fits : (compress (scanlines width bytes)).length < UInt32.size) :
    decode file = .ok (written width height bytes) := by
  obtain ⟨⟨wide, high⟩, -, length, rfl⟩ := encodeWith_eq_ok.1 encoded
  have held := held_of_fits undone wide length fits
  exact decode_signature_chunks undone wide high length (dataSize_lt length held) fits

theorem decodeImage_of_encodeImageWith {image : Image} (undone : Zlib.Undoes compress)
    (encoded : encodeImageWith compress image = .ok file)
    (fits : (compress (scanlines image.width image.bytes)).length < UInt32.size) :
    decodeImage file = .ok image := by
  obtain ⟨⟨wide, -⟩, -, length, -⟩ := encodeWith_eq_ok.1 encoded
  rw [decodeImage, decode_of_encodeWith undone encoded fits]
  exact toImage_written_bytes wide length

/-- If decoding undoes a way to compress, an image with four bytes for each position is read back
as it was written, provided that a word counts its compressed rows, and normalizing leaves it
alone. Writing fails without a side, otherwise if a word of 64 bits does not count four bytes for
each position, and otherwise with another number of bytes. -/
theorem encode_decode (undone : Zlib.Undoes compress) (width height : UInt32)
    (bytes : List UInt8) :
    (width ≠ 0 → height ≠ 0 → bytes.length = 4 * Image.area width height →
      (compress (scanlines width bytes)).length < UInt32.size →
      ∃ file, encodeWith compress width height bytes = .ok file ∧
        decode file = .ok
          { header := { width, height, depth := .eight, color := .rgba }
            raw := bytes
            palette := []
            transparency := none } ∧
        decodeImage file = .ok { width, height, pixels := (Pixel.listOfBytes bytes).toArray } ∧
        normalizeWith compress file = .ok file) ∧
    (∀ error, encodeWith compress width height bytes = .error error ↔
      (width = 0 ∨ height = 0) ∧ error = .zeroSize ∨
      (width ≠ 0 ∧ height ≠ 0) ∧ UInt64.size ≤ 4 * Image.area width height ∧ error = .overflow ∨
      (width ≠ 0 ∧ height ≠ 0) ∧ 4 * Image.area width height < UInt64.size ∧
        bytes.length ≠ 4 * Image.area width height ∧
        error = .bufferSize width height (4 * Image.area width height) bytes.length) := by
  refine ⟨fun wide high length fits => ?_, fun error => encodeWith_eq_error⟩
  obtain ⟨file, encoded⟩ := exists_encodeWith undone wide high length fits
  have decoded := decode_of_encodeWith undone encoded fits
  refine ⟨_, encoded, decoded, ?_, ?_⟩
  · rw [decodeImage, decoded]
    exact toImage_written wide length
  · simp [normalizeWith, decoded, written, writtenHeader, ColorType.isTruecolor, bind, Except.bind,
      pure, Except.pure]

end Encoding

/-- A single pixel is read back, and no bytes at all are not refused as too few for an image of
`2 ^ 31` columns and rows. -/
theorem encode_decode_pixel :
    (∃ file, encodeWith Zlib.encode 1 1 [10, 20, 30, 255] = .ok file ∧
      decodeImage file =
        .ok { width := 1, height := 1, pixels := #[⟨10, 20, 30, 255⟩] }) ∧
    encodeWith Zlib.encode 0x80000000 0x80000000 [] = .error .overflow := by
  constructor
  · have fits : (Zlib.encode (scanlines 1 [10, 20, 30, 255])).length < UInt32.size := by
      simp [scanlines, rows, Zlib.encode, Flate.store, Flate.storedBlock, Flate.storedLimit,
        UInt32.size]
    obtain ⟨file, encoded, -, decoded, -⟩ :=
      (encode_decode Zlib.undoes_encode 1 1 [10, 20, 30, 255]).1 (by decide) (by decide)
        (by decide) fits
    exact ⟨file, encoded, decoded⟩
  · have large : UInt64.size ≤ 4 * Image.area 0x80000000 0x80000000 := by decide
    exact ((encode_decode Zlib.undoes_encode 0x80000000 0x80000000 []).2 .overflow).2
      (.inr (.inl ⟨⟨by decide, by decide⟩, large, rfl⟩))

end Png

end Blockwright
