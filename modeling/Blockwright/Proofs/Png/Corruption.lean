import Blockwright.Proofs.Digest.Checksum
import Blockwright.Proofs.Png.Truncation

/-!
# Image files with a damaged byte

Whatever byte of a file is changed in the kind, the data or the checksum of a chunk up to the first
end, the chunks in front of that one are read as before, and its checksum does not fit any more.
-/

namespace Blockwright

theorem Bytes.bigEndian_injective : Function.Injective Bytes.bigEndian := by
  intro first second same
  have words : Bytes.wordAt (Bytes.bigEndian first ++ []) =
      Bytes.wordAt (Bytes.bigEndian second ++ []) := by rw [same]
  rwa [Bytes.wordAt_bigEndian, Bytes.wordAt_bigEndian] at words

namespace Png

namespace Chunk

variable {chunk : Chunk}

/-- The bytes of a chunk behind its length. -/
def guarded (chunk : Chunk) : List UInt8 :=
  chunk.kind ++ chunk.data ++ Bytes.bigEndian chunk.checksum

theorem bytes_eq_guarded (chunk : Chunk) :
    chunk.bytes = Bytes.bigEndian (UInt32.ofNat chunk.data.length) ++ chunk.guarded := by
  simp [bytes, guarded]

theorem length_guarded (framed : chunk.Framed) :
    chunk.guarded.length = chunk.data.length + 8 := by
  simp only [guarded, List.length_append, framed.kind, Bytes.length_bigEndian]
  omega

/-- As many bytes as a chunk has behind its length are a kind, data and a checksum. -/
theorem exists_parts {guarded : List UInt8} {size : Nat} (length : guarded.length = size + 8) :
    ∃ (other : Chunk) (stated : UInt32), other.kind.length = 4 ∧ other.data.length = size ∧
      guarded = other.kind ++ other.data ++ Bytes.bigEndian stated := by
  have last : (guarded.drop (4 + size)).length = 4 := by
    rw [List.length_drop]
    omega
  refine ⟨⟨guarded.take 4, (guarded.drop 4).take size⟩, Bytes.wordAt (guarded.drop (4 + size)),
    ?_, ?_, ?_⟩
  · rw [List.length_take]
    omega
  · rw [List.length_take, List.length_drop]
    omega
  · rw [Bytes.bigEndian_wordAt last.ge, List.take_of_length_le last.le, List.append_assoc,
      ← List.drop_drop, List.take_append_drop, List.take_append_drop]

theorem checksum_ne {other : Chunk} {stated : UInt32} {place : Nat} {byte : UInt8}
    (inside : place < chunk.guarded.length) (changed : chunk.guarded[place] ≠ byte)
    (framed : chunk.Framed) (kind : other.kind.length = 4)
    (data : other.data.length = chunk.data.length)
    (damaged : chunk.guarded.set place byte =
      other.kind ++ other.data ++ Bytes.bigEndian stated) :
    other.checksum ≠ stated := by
  have lengths : (chunk.kind ++ chunk.data).length = (other.kind ++ other.data).length := by
    rw [List.length_append, List.length_append, framed.kind, kind, data]
  rw [guarded, List.set_append] at damaged
  simp only [guarded] at changed
  intro fits
  split at damaged
  · next early =>
    rw [List.getElem_append_left early] at changed
    obtain ⟨body, sum⟩ := List.append_inj damaged (by rw [List.length_set, lengths])
    have sameSum := Bytes.bigEndian_injective sum
    refine Crc32.ofBytes_set_ne early changed ?_
    rw [body]
    exact fits.trans sameSum.symm
  · next late =>
    rw [List.getElem_append_right (by omega)] at changed
    obtain ⟨body, sum⟩ := List.append_inj damaged lengths
    have sameSum : chunk.checksum = stated := by rw [← fits, checksum, checksum, body]
    have within : place - (chunk.kind ++ chunk.data).length <
        (Bytes.bigEndian chunk.checksum).length := by
      rw [guarded, List.length_append] at inside
      omega
    have here := List.getElem?_set_self within (a := byte)
    rw [sum, ← sameSum, List.getElem?_eq_getElem within] at here
    exact changed (Option.some.inj here)

theorem read_damaged (framed : chunk.Framed) (offset : Nat) (rest : List UInt8) {place : Nat}
    {byte : UInt8} (inside : place < chunk.guarded.length)
    (changed : chunk.guarded[place] ≠ byte) :
    read offset (Bytes.bigEndian (UInt32.ofNat chunk.data.length) ++
      (chunk.guarded.set place byte ++ rest)) =
        .error (.badChecksum (String.ofList
          (Text.ofDamaged ((chunk.guarded.set place byte).take 4)))) := by
  have length : (chunk.guarded.set place byte).length = chunk.data.length + 8 := by
    rw [List.length_set, length_guarded framed]
  obtain ⟨other, stated, kind, data, parts⟩ := exists_parts length
  have otherFramed : other.Framed := ⟨kind, data ▸ framed.data⟩
  have found := split_stated otherFramed offset stated rest
  rw [data] at found
  have named : (chunk.guarded.set place byte).take 4 = other.kind := by
    rw [parts, List.append_assoc, List.take_left' kind]
  have unfit := checksum_ne inside changed framed kind data parts
  rw [named, parts, List.append_assoc, List.append_assoc, read, found]
  exact if_neg unfit

end Chunk

namespace Contents

theorem readAll_of_read_error {offset : Nat} {bytes : List UInt8} {error : Error}
    (nonempty : bytes ≠ []) (refused : Chunk.read offset bytes = .error error)
    (contents : Contents) : readAll offset contents bytes = .error error := by
  rw [readAll, if_neg (by simpa using nonempty)]
  split
  · next found =>
    rw [refused] at found
    cases found
    rfl
  · next found =>
    rw [refused] at found
    cases found

end Contents

namespace Layout

variable {file : Layout}

/-- The bytes of a file in front of the kind of a chunk that stands behind others. -/
def upToKind (before : List Chunk) (chunk : Chunk) : List UInt8 :=
  signature ++ (before.flatMap Chunk.bytes ++ Bytes.bigEndian (UInt32.ofNat chunk.data.length))

theorem length_upToKind (before : List Chunk) (chunk : Chunk) :
    (upToKind before chunk).length = behind before + 4 := by
  rw [upToKind, List.length_append, List.length_append, Bytes.length_bigEndian, behind,
    Nat.add_assoc]

theorem bytes_eq_upToKind {before after : List Chunk} {chunk : Chunk}
    (parts : file.parts = before ++ chunk :: after) :
    file.bytes = upToKind before chunk ++
      (chunk.guarded ++ (after.flatMap Chunk.bytes ++ file.trailing)) := by
  simp [bytes, upToEnd, parts, upToKind, Chunk.bytes_eq_guarded]

theorem decode_upToKind {png : Png} (decoded : decode file.bytes = .ok png)
    {before after : List Chunk} {chunk : Chunk} (parts : file.parts = before ++ chunk :: after)
    (framed : chunk.Framed) {place : Nat} {byte : UInt8} (inside : place < chunk.guarded.length)
    (changed : chunk.guarded[place] ≠ byte) (rest : List UInt8) :
    decode (upToKind before chunk ++ (chunk.guarded.set place byte ++ rest)) =
      .error (.badChecksum (String.ofList
        (Text.ofDamaged ((chunk.guarded.set place byte).take 4)))) := by
  have isFront := prefix_front parts
  have framedFront : ∀ chunk ∈ before, chunk.Framed := fun chunk isBefore =>
    framed_front chunk (isFront.subset isBefore)
  have noEnding : ∀ chunk ∈ before, chunk.kind ≠ Chunk.ending := fun chunk isBefore =>
    noEnding_front chunk (isFront.subset isBefore)
  obtain ⟨contents, reads, -, -⟩ := exists_contents decoded isFront
  have nonempty : Bytes.bigEndian (UInt32.ofNat chunk.data.length) ++
      (chunk.guarded.set place byte ++ rest) ≠ [] := List.cons_ne_nil _ _
  have refused := Contents.readAll_of_read_error nonempty
    (Chunk.read_damaged framed (behind before) rest inside changed) contents
  rw [upToKind, List.append_assoc, List.append_assoc, decode_chunks framedFront noEnding, reads]
  simp only [bind, Except.bind, refused]

end Layout

/-- If a byte string is an image, it has the layout of a file, and with any other byte in the place
of one in the kind, the data or the checksum of a chunk up to the first end it is refused, because
the checksum of that chunk is wrong. -/
theorem decode_damaged {bytes : List UInt8} {png : Png} (decoded : decode bytes = .ok png) :
    (∃ file : Layout, file.bytes = bytes) ∧
    ∀ file : Layout, file.bytes = bytes → ∀ before chunk after,
      file.parts = before ++ chunk :: after → ∀ place, behind before + 4 ≤ place →
        place < behind (before ++ [chunk]) → ∀ byte, bytes[place]? ≠ some byte →
          decode (bytes.set place byte) = .error (.badChecksum (String.ofList
            (Text.ofDamaged (((bytes.set place byte).drop (behind before + 4)).take 4)))) := by
  refine ⟨Layout.exists_layout decoded, ?_⟩
  rintro file rfl before chunk after parts place low high byte changed
  have isPart : chunk ∈ file.parts := by
    rw [parts]
    exact List.mem_append_right _ List.mem_cons_self
  have framed := Layout.framed_parts chunk isPart
  obtain ⟨place, rfl⟩ := Nat.exists_eq_add_of_le low
  have inside : place < chunk.guarded.length := by
    simp only [behind, List.flatMap_append, List.flatMap_singleton, List.length_append,
      Chunk.length_bytes framed] at high
    rw [Chunk.length_guarded framed]
    omega
  have front := Layout.length_upToKind before chunk
  have whole := Layout.bytes_eq_upToKind parts
  have different : chunk.guarded[place] ≠ byte := by
    rintro rfl
    rw [whole, ← front, List.getElem?_append_right (Nat.le_add_right _ _),
      Nat.add_sub_cancel_left, List.getElem?_append_left inside,
      List.getElem?_eq_getElem inside] at changed
    exact changed rfl
  have damaged : file.bytes.set (behind before + 4 + place) byte =
      Layout.upToKind before chunk ++
        (chunk.guarded.set place byte ++ (after.flatMap Chunk.bytes ++ file.trailing)) := by
    rw [whole, ← front, List.set_append_right _ _ (Nat.le_add_right _ _),
      Nat.add_sub_cancel_left, List.set_append_left _ _ inside]
  have kind : (chunk.guarded.set place byte ++
      (after.flatMap Chunk.bytes ++ file.trailing)).take 4 =
        (chunk.guarded.set place byte).take 4 := by
    rw [List.take_append_of_le_length]
    rw [List.length_set, Chunk.length_guarded framed]
    omega
  rw [damaged, List.drop_left' front, kind]
  exact Layout.decode_upToKind decoded parts framed inside different _

/-- A pixel whose file says that it has two columns is refused, and so is one with a damaged
kind. -/
theorem decode_damaged_pixel :
    decode (Layout.pixel.bytes.set 19 2) = .error (.badChecksum "IHDR") ∧
      decode (Layout.pixel.bytes.set 39 0x61) = .error (.badChecksum "IDaT") := by
  have name : String.ofList (Text.ofDamaged Chunk.header) = "IHDR" := by cbv
  have otherName : String.ofList (Text.ofDamaged [0x49, 0x44, 0x61, 0x54]) = "IDaT" := by cbv
  constructor
  · have refused := (decode_damaged Layout.decode_pixel).2 Layout.pixel rfl []
      { kind := Chunk.header, data := (writtenHeader 1 1).bytes } _ rfl 19 (by decide) (by decide) 2
      (by decide)
    have kind : ((Layout.pixel.bytes.set 19 2).drop (behind [] + 4)).take 4 = Chunk.header := rfl
    rwa [kind, name] at refused
  · have refused := (decode_damaged Layout.decode_pixel).2 Layout.pixel rfl
      [{ kind := Chunk.header, data := (writtenHeader 1 1).bytes }]
      { kind := Chunk.imageData, data := pixelData } _ rfl 39 (by decide) (by cbv) 0x61
      (by decide)
    have kind : ((Layout.pixel.bytes.set 39 0x61).drop (behind
        [{ kind := Chunk.header, data := (writtenHeader 1 1).bytes }] + 4)).take 4 =
          [0x49, 0x44, 0x61, 0x54] := rfl
    rwa [kind, otherName] at refused

end Png

end Blockwright
