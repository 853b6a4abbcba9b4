import Blockwright.Proofs.Png.Layout

/-!
# Image files that are cut off

Whatever is cut off a file in front of the end of its end chunk, the rest is refused: the signature
is too short, a chunk is not complete, or the header or the end is missing.
-/

namespace Blockwright

theorem exists_part_of_lt {α β : Type} {parts : α → List β} {values : List α} {place : Nat}
    (inside : place < (values.flatMap parts).length) :
    ∃ before value after, values = before ++ value :: after ∧
      (before.flatMap parts).length ≤ place ∧
      place < (before.flatMap parts).length + (parts value).length := by
  induction values generalizing place with
  | nil => simp at inside
  | cons value values ih =>
    by_cases early : place < (parts value).length
    · exact ⟨[], value, values, rfl, Nat.zero_le _, by simpa using early⟩
    · rw [List.flatMap_cons, List.length_append] at inside
      obtain ⟨before, found, after, rfl, low, high⟩ :=
        @ih (place - (parts value).length) (by omega)
      refine ⟨value :: before, found, after, rfl, ?_, ?_⟩
      · rw [List.flatMap_cons, List.length_append]
        omega
      · rw [List.flatMap_cons, List.length_append]
        omega

namespace Png

theorem Chunk.read_take {chunk : Chunk} (framed : chunk.Framed) (offset : Nat) {count : Nat}
    (short : count < chunk.bytes.length) :
    read offset (chunk.bytes.take count) = .error (.truncated offset) := by
  have length := length_bytes framed
  have available : (chunk.bytes.take count).length = count := by
    rw [List.length_take]
    omega
  have cut : (chunk.bytes.take count).length <
      (Bytes.wordAt (chunk.bytes.take count)).toNat + 12 := by
    by_cases few : count < 12
    · omega
    · -- the length of the data is still there, and asks for more
      have size : (Bytes.wordAt (chunk.bytes.take count)).toNat = chunk.data.length := by
        rw [bytes, List.append_assoc, List.append_assoc, List.take_append, List.take_of_length_le
          (by simp; omega), Bytes.wordAt_bigEndian]
        exact toNat_length framed
      omega
  rw [read, split, if_pos cut]

theorem Contents.readAll_take {chunk : Chunk} (framed : chunk.Framed) (offset : Nat)
    (contents : Contents) {count : Nat} (short : count < chunk.bytes.length)
    (positive : 0 < count) :
    readAll offset contents (chunk.bytes.take count) = .error (.truncated offset) := by
  have nonempty : (chunk.bytes.take count).isEmpty = false := by
    rw [List.isEmpty_eq_false_iff, ← List.length_pos_iff, List.length_take]
    omega
  rw [readAll, nonempty, if_neg (by decide)]
  split
  · next found =>
    rw [Chunk.read_take framed offset short] at found
    cases found
    rfl
  · next found =>
    rw [Chunk.read_take framed offset short] at found
    cases found

theorem Contents.readAll_nil (offset : Nat) (contents : Contents) :
    readAll offset contents [] = .ok contents := by
  rw [readAll, if_pos List.isEmpty_nil]

theorem ofContents_of_not_ended {contents : Contents} (notEnded : contents.ended = false) :
    ofContents contents =
      .error (if contents.header = none then .missingHeader else .missingEnd) := by
  cases hasHeader : contents.header with
  | none => simp [ofContents, Contents.complete, hasHeader, bind, Except.bind]
  | some header => simp [ofContents, Contents.complete, hasHeader, notEnded, bind, Except.bind]

namespace Layout

variable {file : Layout}

/-- Why the first bytes of a file are refused, by their number. -/
inductive CutAt (file : Layout) : Nat → Error → Prop where
  | signature {count : Nat} : count < signature.length → CutAt file count .badSignature
  | header : CutAt file (behind []) .missingHeader
  | chunk {before after : List Chunk} {chunk : Chunk} {count : Nat} :
    file.parts = before ++ chunk :: after → behind before < count →
    count < behind (before ++ [chunk]) → CutAt file count (.truncated (behind before))
  /-- There are chunks, but not the end. -/
  | ending {before after : List Chunk} {chunk : Chunk} :
    file.parts = before ++ chunk :: after → before ≠ [] →
    CutAt file (behind before) .missingEnd

/-- The chunks in front of another one do not contain the end. -/
theorem prefix_front {before after : List Chunk} {chunk : Chunk}
    (parts : file.parts = before ++ chunk :: after) : before <+: file.front := by
  have shorter : before.length ≤ file.front.length := by
    have lengths := congrArg List.length parts
    simp only [Layout.parts, List.length_append, List.length_cons, List.length_nil] at lengths
    omega
  exact List.prefix_of_prefix_length_le ⟨_, parts.symm⟩ (List.prefix_append _ _) shorter

/-- What is read of the chunks at the beginning of a file lacks the end, and lacks the header only
if there are none. -/
theorem exists_contents {png : Png} (decoded : decode file.bytes = .ok png) {before : List Chunk}
    (isFront : before <+: file.front) :
    ∃ contents, Contents.readList {} before = .ok contents ∧ contents.ended = false ∧
      (contents.header = none ↔ before = []) := by
  obtain ⟨others, whole⟩ := isFront
  rw [decode_bytes] at decoded
  obtain ⟨contents, reads, -⟩ := Outcome.bind_eq_ok.1 decoded
  rw [← whole, Contents.readList_append] at reads
  obtain ⟨next, readsBefore, -⟩ := Outcome.bind_eq_ok.1 reads
  have noEnding : ∀ chunk ∈ before, chunk.kind ≠ Chunk.ending := fun chunk isBefore =>
    noEnding_front chunk (whole ▸ List.mem_append_left others isBefore)
  refine ⟨next, readsBefore, Contents.ended_of_readList noEnding readsBefore rfl, ?_⟩
  cases before with
  | nil =>
    cases readsBefore
    exact iff_of_true rfl rfl
  | cons first before =>
    have hasHeader := Contents.isSome_header_of_readList readsBefore
    exact iff_of_false (Option.isSome_iff_ne_none.1 hasHeader) (List.cons_ne_nil first before)

theorem take_behind {before after : List Chunk} {chunk : Chunk}
    (parts : file.parts = before ++ chunk :: after) {count : Nat} (low : behind before ≤ count)
    (high : count < behind (before ++ [chunk])) :
    file.bytes.take count = signature ++ (before.flatMap Chunk.bytes ++
      chunk.bytes.take (count - behind before)) := by
  have size : behind (before ++ [chunk]) = behind before + chunk.bytes.length := by
    simp [behind, Nat.add_assoc]
  have whole : file.bytes = (signature ++ before.flatMap Chunk.bytes) ++
      (chunk.bytes ++ (after.flatMap Chunk.bytes ++ file.trailing)) := by
    simp [bytes, upToEnd, parts]
  have front : (signature ++ before.flatMap Chunk.bytes).length = behind before := by
    rw [behind, List.length_append]
  rw [whole, List.take_append, front, List.take_of_length_le (by omega),
    List.take_append_of_le_length (by omega), List.append_assoc]

theorem decode_take_signature {count : Nat} (few : count < signature.length) :
    decode (file.bytes.take count) = .error .badSignature := by
  have unsigned : ¬ signature.isPrefixOf (file.bytes.take count) = true := by
    rw [List.isPrefixOf_iff_prefix]
    intro isPrefix
    have lengths := isPrefix.length_le
    rw [List.length_take] at lengths
    omega
  rw [decode, if_neg unsigned]

theorem exists_error_take {png : Png} (decoded : decode file.bytes = .ok png)
    {before after : List Chunk} {chunk : Chunk} (parts : file.parts = before ++ chunk :: after)
    {count : Nat} (low : behind before ≤ count) (high : count < behind (before ++ [chunk])) :
    ∃ error, decode (file.bytes.take count) = .error error ∧ file.CutAt count error := by
  have isFront := prefix_front parts
  have framed : ∀ chunk ∈ before, chunk.Framed := fun chunk isBefore =>
    framed_front chunk (isFront.subset isBefore)
  have noEnding : ∀ chunk ∈ before, chunk.kind ≠ Chunk.ending := fun chunk isBefore =>
    noEnding_front chunk (isFront.subset isBefore)
  obtain ⟨contents, reads, notEnded, noHeader⟩ := exists_contents decoded isFront
  rw [take_behind parts low high, decode_chunks framed noEnding, reads]
  by_cases between : count = behind before
  · subst between
    have refused := ofContents_of_not_ended notEnded
    simp only [Nat.sub_self, List.take_zero, bind, Except.bind, Contents.readAll_nil, refused,
      noHeader]
    by_cases none : before = []
    · subst none
      exact ⟨_, rfl, .header⟩
    · rw [if_neg none]
      exact ⟨_, rfl, .ending parts none⟩
  · have cut : count - behind before < chunk.bytes.length := by
      simp only [behind, List.flatMap_append, List.flatMap_singleton, List.length_append]
        at low high ⊢
      omega
    have isPart : chunk ∈ file.parts := by
      rw [parts]
      exact List.mem_append_right _ List.mem_cons_self
    have refused := Contents.readAll_take (framed_parts chunk isPart) (behind before) contents cut
      (by omega)
    simp only [bind, Except.bind, refused]
    exact ⟨_, rfl, .chunk parts (by omega) high⟩

end Layout

/-- If a byte string is an image, then every beginning of it that stops in front of the end of its
first end chunk is refused: because the signature is cut off, because a chunk is cut off, or because
there is no header or no end. -/
theorem decode_take {bytes : List UInt8} {png : Png} (decoded : decode bytes = .ok png) :
    (∃ file : Layout, file.bytes = bytes) ∧
    ∀ file : Layout, file.bytes = bytes → ∀ count < file.upToEnd.length,
      ∃ error, decode (bytes.take count) = .error error ∧ file.CutAt count error := by
  refine ⟨Layout.exists_layout decoded, ?_⟩
  rintro file rfl count short
  by_cases few : count < signature.length
  · exact ⟨_, Layout.decode_take_signature few, .signature few⟩
  · rw [Layout.upToEnd, List.length_append] at short
    obtain ⟨before, chunk, after, parts, low, high⟩ :=
      @exists_part_of_lt _ _ Chunk.bytes file.parts (count - signature.length) (by omega)
    refine Layout.exists_error_take decoded parts ?_ ?_
    · rw [behind]
      omega
    · simp only [behind, List.flatMap_append, List.flatMap_singleton, List.length_append]
      omega

/-- Nothing can be cut off the file of a single pixel. -/
theorem decode_take_pixel :
    0 < Layout.pixel.bytes.length ∧ ∀ count < Layout.pixel.bytes.length,
      ∃ error, decode (Layout.pixel.bytes.take count) = .error error := by
  have nothingBehind : Layout.pixel.bytes = Layout.pixel.upToEnd := List.append_nil _
  refine ⟨by simp [nothingBehind, Layout.upToEnd, signature], fun count short => ?_⟩
  obtain ⟨error, refused, -⟩ :=
    (decode_take Layout.decode_pixel).2 Layout.pixel rfl count (nothingBehind ▸ short)
  exact ⟨error, refused⟩

end Png

end Blockwright
