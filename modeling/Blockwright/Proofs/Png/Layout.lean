import Blockwright.Proofs.Png.RoundTrip

/-!
# Chunks of image files

An image file that is accepted consists of the signature, its chunks from the header to the first
end, and bytes behind them that count for nothing. What is read of it depends on the header, on the
palettes and transparencies in their order, and on the image data put together. How the image data
is divided into chunks, where these stand and what other chunks there are makes no difference.
-/

namespace Blockwright

namespace Png

/-! ## Reading chunks -/

namespace Chunk

theorem split_eq_ok {offset : Nat} {bytes rest : List UInt8} {chunk : Chunk} {stated : UInt32}
    (found : split offset bytes = .ok (chunk, stated, rest)) :
    chunk.Framed ∧ bytes = Bytes.bigEndian (UInt32.ofNat chunk.data.length) ++
      (chunk.kind ++ (chunk.data ++ (Bytes.bigEndian stated ++ rest))) := by
  rw [split] at found
  dsimp only at found
  split at found
  · cases found
  · next long =>
    have size : (Bytes.wordAt bytes).toNat < UInt32.size := (Bytes.wordAt bytes).toNat_lt
    generalize isSize : (Bytes.wordAt bytes).toNat = count at found long size
    cases found
    have kindLength : ((bytes.drop 4).take 4).length = 4 := by simp; omega
    have dataLength : (((bytes.drop 4).drop 4).take count).length = count := by simp; omega
    have sum : Bytes.bigEndian (Bytes.wordAt ((bytes.drop 4).drop (4 + count))) =
        ((bytes.drop 4).drop (4 + count)).take 4 := Bytes.bigEndian_wordAt (by simp; omega)
    have word : Bytes.bigEndian (UInt32.ofNat count) = bytes.take 4 := by
      rw [← isSize, UInt32.ofNat_toNat]
      exact Bytes.bigEndian_wordAt (by omega)
    refine ⟨⟨kindLength, dataLength.symm ▸ size⟩, ?_⟩
    rw [dataLength, word, sum, ← List.drop_drop, List.take_append_drop, List.take_append_drop,
      List.take_append_drop, List.take_append_drop]

/-- A chunk is read exactly if its bytes stand in front. -/
theorem read_eq_ok {offset : Nat} {bytes rest : List UInt8} {chunk : Chunk} :
    read offset bytes = .ok (chunk, rest) ↔ chunk.Framed ∧ bytes = chunk.bytes ++ rest := by
  constructor
  · intro found
    rw [read] at found
    split at found
    · cases found
    · next parts =>
      split at found
      · next agrees =>
        cases found
        obtain ⟨framed, rfl⟩ := split_eq_ok parts
        exact ⟨framed, by simp [Chunk.bytes, agrees]⟩
      · cases found
  · rintro ⟨framed, rfl⟩
    exact read_bytes framed offset rest

/-- Whether a chunk is a palette or the transparency of one. -/
def isTable (chunk : Chunk) : Bool := chunk.kind = palette || chunk.kind = transparency

/-- Whether a chunk holds image data. -/
def isData (chunk : Chunk) : Bool := chunk.kind = imageData

end Chunk

/-- The image data of chunks, put together. -/
def dataOf (chunks : List Chunk) : List UInt8 := (chunks.filter Chunk.isData).flatMap Chunk.data

namespace Contents

/-- Reads chunks one by one. -/
def readList (contents : Contents) (chunks : List Chunk) : Except Error Contents :=
  chunks.foldlM read contents

variable {contents after : Contents}

theorem readList_cons (contents : Contents) (chunk : Chunk) (chunks : List Chunk) :
    contents.readList (chunk :: chunks) = contents.read chunk >>= (·.readList chunks) :=
  List.foldlM_cons

theorem readList_append (contents : Contents) (first second : List Chunk) :
    contents.readList (first ++ second) = contents.readList first >>= (·.readList second) :=
  List.foldlM_append

/-- What is read of a chunk: the first header, something behind the header, or nothing of a chunk
that counts for nothing. -/
theorem read_cases {chunk : Chunk} (reads : contents.read chunk = .ok after) :
    (chunk.kind = Chunk.header ∧ contents.header = none ∧
        ∃ header, after = { contents with header := some header }) ∨
    chunk.kind ≠ Chunk.header ∧ contents.header.isSome = true ∧
      ((chunk.kind ≠ Chunk.ending ∧
          ∃ palette transparency data, after = { contents with palette, transparency, data }) ∨
        chunk.kind = Chunk.ending ∧ after = { contents with ended := true }) := by
  rw [read] at reads
  split at reads
  · next isHeader =>
    split at reads
    · cases reads
    · next missing =>
      obtain ⟨header, -, rfl⟩ := Outcome.map_eq_ok.1 reads
      exact .inl ⟨isHeader, by simpa using missing, header, rfl⟩
  · next other =>
    split at reads
    · cases reads
    · next missing =>
      refine .inr ⟨other, by simpa [Option.isSome_iff_ne_none] using missing, ?_⟩
      split at reads
      · next isPalette =>
        dsimp only at reads
        split at reads
        · cases reads
        · cases reads
          exact .inl ⟨by rw [isPalette]; decide, _, _, _, rfl⟩
      · split at reads
        · next isTransparency =>
          cases reads
          exact .inl ⟨by rw [isTransparency]; decide, _, _, _, rfl⟩
        · split at reads
          · next isData =>
            cases reads
            exact .inl ⟨by rw [isData]; decide, _, _, _, rfl⟩
          · split at reads
            · next isEnding =>
              cases reads
              exact .inr ⟨isEnding, rfl⟩
            · next notEnding =>
              cases reads
              exact .inl ⟨notEnding, _, _, _, rfl⟩

/-- Only an end ends the chunks. -/
theorem ended_of_read {chunk : Chunk} (reads : contents.read chunk = .ok after)
    (goesOn : contents.ended = false) : after.ended = true ↔ chunk.kind = Chunk.ending := by
  rcases read_cases reads with ⟨isHeader, -, header, rfl⟩ |
    ⟨-, -, ⟨notEnding, _, _, _, rfl⟩ | ⟨isEnding, rfl⟩⟩
  · simp [goesOn, isHeader, Chunk.header, Chunk.ending]
  · simp [goesOn, notEnding]
  · simp [isEnding]

/-- A header that has been read stays. -/
theorem header_of_read {chunk : Chunk} {header : Header}
    (reads : contents.read chunk = .ok after) (hasHeader : contents.header = some header) :
    chunk.kind ≠ Chunk.header ∧ after.header = some header := by
  rcases read_cases reads with ⟨-, missing, -⟩ | ⟨other, -, ⟨-, _, _, _, rfl⟩ | ⟨-, rfl⟩⟩
  · rw [hasHeader] at missing
    cases missing
  · exact ⟨other, hasHeader⟩
  · exact ⟨other, hasHeader⟩

theorem isSome_header_of_read {chunk : Chunk} (reads : contents.read chunk = .ok after) :
    after.header.isSome = true := by
  rcases read_cases reads with ⟨-, -, header, rfl⟩ |
    ⟨-, hasHeader, ⟨-, _, _, _, rfl⟩ | ⟨-, rfl⟩⟩
  · rfl
  · exact hasHeader
  · exact hasHeader

theorem readAll_flatMap {chunks : List Chunk} (framed : ∀ chunk ∈ chunks, chunk.Framed)
    (noEnding : ∀ chunk ∈ chunks, chunk.kind ≠ Chunk.ending) (offset : Nat)
    (goesOn : contents.ended = false) (rest : List UInt8) :
    readAll offset contents (chunks.flatMap Chunk.bytes ++ rest) = (do
      let next ← contents.readList chunks
      readAll (offset + (chunks.flatMap Chunk.bytes).length) next rest) := by
  induction chunks generalizing offset contents with
  | nil => rfl
  | cons chunk chunks ih =>
    rw [List.forall_mem_cons] at framed noEnding
    rw [List.flatMap_cons, List.append_assoc, readAll_chunk framed.1, readList_cons]
    cases reads : contents.read chunk with
    | error error => rfl
    | ok next =>
      have unended : next.ended = false := by
        rw [← Bool.not_eq_true, ended_of_read reads goesOn]
        exact noEnding.1
      have others := ih framed.2 noEnding.2 (offset + chunk.bytes.length) unended
      simp only [bind, Except.bind] at others ⊢
      rw [unended, if_neg (by simp), others, List.length_append, Nat.add_assoc]

/-- Chunks that are read without an end leave the end open. -/
theorem ended_of_readList {chunks : List Chunk}
    (noEnding : ∀ chunk ∈ chunks, chunk.kind ≠ Chunk.ending)
    (reads : contents.readList chunks = .ok after) (goesOn : contents.ended = false) :
    after.ended = false := by
  induction chunks generalizing contents with
  | nil =>
    cases reads
    exact goesOn
  | cons chunk chunks ih =>
    rw [List.forall_mem_cons] at noEnding
    rw [readList_cons] at reads
    obtain ⟨next, first, others⟩ := Outcome.bind_eq_ok.1 reads
    refine ih noEnding.2 others ?_
    rw [← Bool.not_eq_true, ended_of_read first goesOn]
    exact noEnding.1

theorem header_of_readList {chunks : List Chunk} {header : Header}
    (reads : contents.readList chunks = .ok after) (hasHeader : contents.header = some header) :
    (∀ chunk ∈ chunks, chunk.kind ≠ Chunk.header) ∧ after.header = some header := by
  induction chunks generalizing contents with
  | nil =>
    cases reads
    exact ⟨by simp, hasHeader⟩
  | cons chunk chunks ih =>
    rw [readList_cons] at reads
    obtain ⟨next, first, others⟩ := Outcome.bind_eq_ok.1 reads
    obtain ⟨other, stays⟩ := header_of_read first hasHeader
    obtain ⟨others, kept⟩ := ih others stays
    exact ⟨List.forall_mem_cons.2 ⟨other, others⟩, kept⟩

/-- If any chunks are read, there is a header. -/
theorem isSome_header_of_readList {chunk : Chunk} {chunks : List Chunk}
    (reads : contents.readList (chunk :: chunks) = .ok after) : after.header.isSome = true := by
  rw [readList_cons] at reads
  obtain ⟨next, first, others⟩ := Outcome.bind_eq_ok.1 reads
  obtain ⟨header, hasHeader⟩ := Option.isSome_iff_exists.1 (isSome_header_of_read first)
  rw [(header_of_readList others hasHeader).2]
  rfl

theorem exists_chunks_of_readAll {offset : Nat} {bytes : List UInt8}
    (reads : readAll offset contents bytes = .ok after) (goesOn : contents.ended = false)
    (ends : after.ended = true) :
    ∃ chunks ending trailing, bytes =
        chunks.flatMap Chunk.bytes ++ (Chunk.bytes { kind := Chunk.ending, data := ending } ++
          trailing) ∧
      (∀ chunk ∈ chunks, chunk.Framed ∧ chunk.kind ≠ Chunk.ending) ∧
      Chunk.Framed { kind := Chunk.ending, data := ending } ∧
      ∃ next, contents.readList chunks = .ok next ∧ next.header.isSome = true := by
  fun_induction readAll offset contents bytes with
  | case1 =>
    cases reads
    rw [goesOn] at ends
    cases ends
  | case2 => cases reads
  | case3 => cases reads
  | case4 offset contents bytes _ chunk rest found next read _ =>
    cases reads
    obtain ⟨framed, rfl⟩ := Chunk.read_eq_ok.1 found
    have isEnding := (ended_of_read read goesOn).1 ends
    obtain ⟨kind, data⟩ := chunk
    obtain rfl : kind = Chunk.ending := isEnding
    refine ⟨[], data, rest, rfl, by simp, framed, contents, rfl, ?_⟩
    rcases read_cases read with ⟨isHeader, -⟩ | ⟨-, hasHeader, -⟩
    · simp [Chunk.ending, Chunk.header] at isHeader
    · exact hasHeader
  | case5 offset contents bytes _ chunk rest found next read notEnded ih =>
    obtain ⟨framed, rfl⟩ := Chunk.read_eq_ok.1 found
    have unended : next.ended = false := by simpa using notEnded
    obtain ⟨chunks, ending, trailing, rfl, inner, endingFramed, last, others, hasHeader⟩ :=
      ih reads unended
    have notEnding : chunk.kind ≠ Chunk.ending := fun isEnding =>
      notEnded ((ended_of_read read goesOn).2 isEnding)
    refine ⟨chunk :: chunks, ending, trailing, ?_, ?_, endingFramed, last, ?_, hasHeader⟩
    · rw [List.flatMap_cons, List.append_assoc]
    · exact List.forall_mem_cons.2 ⟨⟨framed, notEnding⟩, inner⟩
    · rw [readList_cons, read]
      exact others

/-- A table is read in the same way whatever image data there is. -/
theorem read_of_isTable {chunk : Chunk} (hasHeader : contents.header.isSome = true)
    (isTable : chunk.isTable = true) (data : List UInt8) :
    ({ contents with data }).read chunk =
      (contents.read chunk).map fun next => { next with data } := by
  have kind : chunk.kind = Chunk.palette ∨ chunk.kind = Chunk.transparency := by
    simpa [Chunk.isTable] using isTable
  have missing : contents.header.isNone = false := by simpa using hasHeader
  rcases kind with isPalette | isTransparency
  · simp only [read, isPalette, if_neg (show Chunk.palette ≠ Chunk.header by decide), missing,
      Bool.false_eq_true, if_false, if_true]
    split <;> rfl
  · simp only [read, isTransparency, if_neg (show Chunk.transparency ≠ Chunk.header by decide),
      if_neg (show Chunk.transparency ≠ Chunk.palette by decide), missing, Bool.false_eq_true,
      if_false, if_true]
    rfl

theorem data_of_read_table {chunk : Chunk} (isTable : chunk.isTable = true)
    (hasHeader : contents.header.isSome = true) (reads : contents.read chunk = .ok after) :
    after.data = contents.data := by
  have again : contents.read chunk = (contents.read chunk).map _ :=
    read_of_isTable hasHeader isTable contents.data
  rw [reads] at again
  have same : after = { after with data := contents.data } := Except.ok.inj again
  have sameData := congrArg data same
  exact sameData

theorem read_of_isData {chunk : Chunk} (hasHeader : contents.header.isSome = true)
    (isData : chunk.isData = true) :
    contents.read chunk = .ok { contents with data := contents.data ++ chunk.data } := by
  have kind : chunk.kind = Chunk.imageData := by simpa [Chunk.isData] using isData
  have missing : contents.header.isNone = false := by simpa using hasHeader
  simp [read, kind, missing, Chunk.imageData, Chunk.header, Chunk.palette, Chunk.transparency]

theorem read_of_ending {chunk : Chunk} (hasHeader : contents.header.isSome = true)
    (isEnding : chunk.kind = Chunk.ending) :
    contents.read chunk = .ok { contents with ended := true } := by
  have missing : contents.header.isNone = false := by simpa using hasHeader
  simp [read, isEnding, missing, Chunk.ending, Chunk.header, Chunk.palette, Chunk.transparency,
    Chunk.imageData]

theorem read_of_other {chunk : Chunk} (hasHeader : contents.header.isSome = true)
    (noHeader : chunk.kind ≠ Chunk.header) (noEnding : chunk.kind ≠ Chunk.ending)
    (noTable : chunk.isTable = false) (noData : chunk.isData = false) :
    contents.read chunk = .ok contents := by
  have missing : contents.header.isNone = false := by simpa using hasHeader
  simp only [Chunk.isTable, Bool.or_eq_false_iff, decide_eq_false_iff_not] at noTable
  simp only [Chunk.isData, decide_eq_false_iff_not] at noData
  simp [read, noHeader, noEnding, noTable, noData, missing]

/-- Reading chunks comes to the same as putting in all their image data at once and then reading
the tables among them. -/
theorem readList_eq_tables {chunks : List Chunk}
    (noHeader : ∀ chunk ∈ chunks, chunk.kind ≠ Chunk.header)
    (noEnding : ∀ chunk ∈ chunks, chunk.kind ≠ Chunk.ending)
    (hasHeader : contents.header.isSome = true) :
    contents.readList chunks =
      readList { contents with data := contents.data ++ dataOf chunks }
        (chunks.filter Chunk.isTable) := by
  induction chunks generalizing contents with
  | nil => simp [readList, dataOf]
  | cons chunk chunks ih =>
    rw [List.forall_mem_cons] at noHeader noEnding
    rw [readList_cons]
    by_cases isTable : chunk.isTable = true
    · have noData : chunk.isData = false := by
        rcases (by simpa [Chunk.isTable] using isTable :
          chunk.kind = Chunk.palette ∨ chunk.kind = Chunk.transparency) with kind | kind
        · simp [Chunk.isData, kind, Chunk.palette, Chunk.imageData]
        · simp [Chunk.isData, kind, Chunk.transparency, Chunk.imageData]
      have sameData : dataOf (chunk :: chunks) = dataOf chunks := by
        rw [dataOf, List.filter_cons_of_neg (by simp [noData]), ← dataOf]
      have atOnce := read_of_isTable hasHeader isTable (contents.data ++ dataOf chunks)
      rw [List.filter_cons_of_pos isTable, readList_cons, sameData, atOnce]
      cases reads : contents.read chunk with
      | error error => rfl
      | ok next =>
        obtain ⟨header, found⟩ := Option.isSome_iff_exists.1 hasHeader
        have kept := (header_of_read reads found).2
        have others := ih noHeader.2 noEnding.2 (by rw [kept]; rfl)
        rw [data_of_read_table isTable hasHeader reads] at others
        exact others
    · rw [List.filter_cons_of_neg isTable]
      by_cases isData : chunk.isData = true
      · rw [read_of_isData hasHeader isData, dataOf, List.filter_cons_of_pos isData,
          List.flatMap_cons, ← dataOf, ← List.append_assoc]
        exact ih noHeader.2 noEnding.2 hasHeader
      · rw [read_of_other hasHeader noHeader.1 noEnding.1 (by simpa using isTable)
          (by simpa using isData), dataOf, List.filter_cons_of_neg isData, ← dataOf]
        exact ih noHeader.2 noEnding.2 hasHeader

end Contents

/-! ## Files -/

/-- Place in a file behind the given chunks. -/
def behind (chunks : List Chunk) : Nat := signature.length + (chunks.flatMap Chunk.bytes).length

/-- Chunks without an end behind the signature are read before what follows them. -/
theorem decode_chunks {chunks : List Chunk} (framed : ∀ chunk ∈ chunks, chunk.Framed)
    (noEnding : ∀ chunk ∈ chunks, chunk.kind ≠ Chunk.ending) (rest : List UInt8) :
    decode (signature ++ (chunks.flatMap Chunk.bytes ++ rest)) = (do
      let contents ← Contents.readList {} chunks
      let contents ← Contents.readAll (behind chunks) contents rest
      ofContents contents) := by
  rw [decode_signature, Contents.readAll_flatMap framed noEnding _ rfl]
  cases Contents.readList {} chunks with
  | error error => rfl
  | ok contents => rfl

/-- An image file: its chunks from the header to the first end, and the bytes behind them. -/
structure Layout where
  header : List UInt8
  /-- Chunks between the header and the end. -/
  body : List Chunk
  ending : List UInt8
  trailing : List UInt8
  headerFramed : Chunk.Framed { kind := Chunk.header, data := header }
  bodyFramed : ∀ chunk ∈ body, chunk.Framed
  endingFramed : Chunk.Framed { kind := Chunk.ending, data := ending }
  noHeader : ∀ chunk ∈ body, chunk.kind ≠ Chunk.header
  /-- The end is the first one. -/
  noEnding : ∀ chunk ∈ body, chunk.kind ≠ Chunk.ending

namespace Layout

/-- Chunks in front of the end. -/
def front (file : Layout) : List Chunk := { kind := Chunk.header, data := file.header } :: file.body

/-- The end. -/
def last (file : Layout) : Chunk := { kind := Chunk.ending, data := file.ending }

/-- Chunks of a file up to its end. -/
def parts (file : Layout) : List Chunk := file.front ++ [file.last]

/-- The bytes of a file up to its end. -/
def upToEnd (file : Layout) : List UInt8 := signature ++ file.parts.flatMap Chunk.bytes

/-- The bytes of a file. -/
def bytes (file : Layout) : List UInt8 := file.upToEnd ++ file.trailing

variable {file other : Layout}

theorem framed_last : file.last.Framed := file.endingFramed

theorem framed_front : ∀ chunk ∈ file.front, chunk.Framed :=
  List.forall_mem_cons.2 ⟨file.headerFramed, file.bodyFramed⟩

theorem framed_parts : ∀ chunk ∈ file.parts, chunk.Framed :=
  List.forall_mem_append.2 ⟨framed_front, List.forall_mem_singleton.2 framed_last⟩

theorem noEnding_front : ∀ chunk ∈ file.front, chunk.kind ≠ Chunk.ending :=
  List.forall_mem_cons.2 ⟨by simp [Chunk.header, Chunk.ending], file.noEnding⟩

/-- A byte string that is an image has the layout of a file. -/
theorem exists_layout {bytes : List UInt8} {png : Png} (decoded : decode bytes = .ok png) :
    ∃ file : Layout, file.bytes = bytes := by
  obtain ⟨rest, contents, rfl, reads, made⟩ := exists_contents_of_decode decoded
  obtain ⟨chunks, ending, trailing, rfl, inner, endingFramed, next, reads, hasHeader⟩ :=
    Contents.exists_chunks_of_readAll reads rfl (ofContents_eq_ok made).1.2
  cases chunks with
  | nil =>
    cases reads
    cases hasHeader
  | cons chunk body =>
    rw [Contents.readList_cons] at reads
    obtain ⟨second, first, others⟩ := Outcome.bind_eq_ok.1 reads
    obtain ⟨kind, data⟩ := chunk
    rcases Contents.read_cases first with ⟨isHeader, -, header, rfl⟩ | ⟨-, missing, -⟩
    · obtain rfl : kind = Chunk.header := isHeader
      rw [List.forall_mem_cons] at inner
      exact ⟨
        { header := data
          body
          ending
          trailing
          headerFramed := inner.1.1
          bodyFramed := fun chunk isBody => (inner.2 chunk isBody).1
          endingFramed
          noHeader := (Contents.header_of_readList others rfl).1
          noEnding := fun chunk isBody => (inner.2 chunk isBody).2 },
        by simp [Layout.bytes, upToEnd, parts, front, last]⟩
    · cases missing

/-- A file is decoded by reading its chunks up to the end. -/
theorem decode_bytes (file : Layout) :
    decode file.bytes = (do
      let contents ← Contents.readList {} file.front
      ofContents { contents with ended := true }) := by
  have form : file.bytes =
      signature ++ (file.front.flatMap Chunk.bytes ++ (file.last.bytes ++ file.trailing)) := by
    simp [bytes, upToEnd, parts]
  rw [form, decode_chunks framed_front noEnding_front]
  cases reads : Contents.readList {} file.front with
  | error error => rfl
  | ok contents =>
    have hasHeader := Contents.isSome_header_of_readList reads
    have ends : contents.read file.last = .ok { contents with ended := true } :=
      Contents.read_of_ending hasHeader rfl
    simp only [bind, Except.bind, Contents.readAll_chunk framed_last, ends, if_true]

/-- Files with the same header, the same palettes and transparencies in the same order, and the same
image data, however it is divided. -/
structure Agrees (file other : Layout) : Prop where
  header : file.header = other.header
  /-- Palettes and transparencies stand in the same order. -/
  tables : file.body.filter Chunk.isTable = other.body.filter Chunk.isTable
  /-- The image data is the same when it is put together. -/
  data : dataOf file.body = dataOf other.body

theorem Agrees.decode_eq (agree : file.Agrees other) :
    decode file.bytes = decode other.bytes := by
  have front : Contents.readList {} file.front = Contents.readList {} other.front := by
    rw [front, front, agree.header, Contents.readList_cons, Contents.readList_cons]
    cases first : Contents.read {} { kind := Chunk.header, data := other.header } with
    | error error => rfl
    | ok next =>
      have hasHeader := Contents.isSome_header_of_read first
      have tables := Contents.readList_eq_tables file.noHeader file.noEnding hasHeader
      rw [agree.tables, agree.data] at tables
      exact tables.trans
        (Contents.readList_eq_tables other.noHeader other.noEnding hasHeader).symm
  rw [decode_bytes, decode_bytes, front]

end Layout

/-- A byte string that is an image has the layout of a file, and every file that has the same
header, the same palettes and transparencies in their order and the same image data is the same
image: wherever the image data is divided, whatever chunks of other kinds stand between the header
and the first end, and whatever follows the end. -/
theorem decode_rearranged {bytes : List UInt8} {png : Png} (decoded : decode bytes = .ok png) :
    (∃ file : Layout, file.bytes = bytes) ∧
    ∀ file other : Layout, file.bytes = bytes → file.Agrees other →
      decode other.bytes = .ok png := by
  refine ⟨Layout.exists_layout decoded, ?_⟩
  rintro file other rfl agree
  exact agree.decode_eq.symm.trans decoded

/-- Image data of a single pixel. -/
def pixelData : List UInt8 := Zlib.encode (scanlines 1 [10, 20, 30, 255])

theorem length_pixelData : pixelData.length < UInt32.size := by
  simp [pixelData, scanlines, rows, Zlib.encode, Flate.store, Flate.storedBlock,
    Flate.storedLimit, UInt32.size]

/-- The file of a single pixel. -/
def Layout.pixel : Layout where
  header := (writtenHeader 1 1).bytes
  body := [{ kind := Chunk.imageData, data := pixelData }]
  ending := []
  trailing := []
  headerFramed := ⟨rfl, by decide⟩
  bodyFramed := List.forall_mem_singleton.2 ⟨rfl, length_pixelData⟩
  endingFramed := ⟨rfl, by decide⟩
  noHeader := by simp [Chunk.imageData, Chunk.header]
  noEnding := by simp [Chunk.imageData, Chunk.ending]

/-- The file of the same pixel with a text, its image data in three parts of which one is empty, and
more bytes behind the end. -/
def Layout.dividedPixel : Layout where
  header := (writtenHeader 1 1).bytes
  body := [
    { kind := Chunk.imageData, data := pixelData.take 5 },
    { kind := [0x74, 0x45, 0x58, 0x74], data := [0x68, 0x69] },
    { kind := Chunk.imageData, data := [] },
    { kind := Chunk.imageData, data := pixelData.drop 5 }]
  ending := []
  trailing := [1, 2, 3]
  headerFramed := ⟨rfl, by decide⟩
  bodyFramed := by
    have long := length_pixelData
    simp only [List.forall_mem_cons, List.not_mem_nil, false_implies, implies_true, and_true]
    refine ⟨⟨rfl, ?_⟩, ⟨rfl, by decide⟩, ⟨rfl, by decide⟩, ⟨rfl, ?_⟩⟩
    · rw [List.length_take]
      omega
    · rw [List.length_drop]
      omega
  endingFramed := ⟨rfl, by decide⟩
  noHeader := by simp [Chunk.imageData, Chunk.header]
  noEnding := by simp [Chunk.imageData, Chunk.ending]

theorem Layout.decode_pixel : decode pixel.bytes = .ok (written 1 1 [10, 20, 30, 255]) := by
  have file : pixel.bytes = signature ++ (chunks 1 1 pixelData).flatMap Chunk.bytes := by
    simp [bytes, upToEnd, parts, front, last, pixel, chunks]
  rw [file]
  exact decode_signature_chunks Zlib.undoes_encode (by decide) (by decide) (by decide) (by decide)
    length_pixelData

/-- The image data of a pixel may be divided, with other chunks in between and bytes behind the
end. -/
theorem decode_rearranged_pixel :
    decode Layout.dividedPixel.bytes = .ok (written 1 1 [10, 20, 30, 255]) := by
  have agree : Layout.pixel.Agrees Layout.dividedPixel :=
    { header := rfl
      tables := rfl
      data := by
        simp [dataOf, Layout.pixel, Layout.dividedPixel, Chunk.isData, Chunk.imageData] }
  exact (decode_rearranged Layout.decode_pixel).2 _ _ rfl agree

end Png

end Blockwright
