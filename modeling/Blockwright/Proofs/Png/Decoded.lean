import Blockwright.Proofs.Outcome
import Blockwright.Png.Pixels

/-!
# Decoded images

The header of an image that is decoded has sides and a depth that its color type allows, and the
image has as many rows as its height says, each of as many bytes as the header asks for.
-/

namespace Blockwright

namespace Png

/-! ## Headers -/

/-- Whether a header has sides, and a depth that its color type allows. -/
structure Header.IsValid (header : Header) : Prop where
  wide : header.width ≠ 0
  high : header.height ≠ 0
  allowed : header.color.allows header.depth = true

theorem Header.isValid_of_ofBytes {data : List UInt8} {header : Header}
    (read : ofBytes data = .ok header) : header.IsValid := by
  unfold ofBytes at read
  split at read
  · dsimp only at read
    split at read
    · cases read
    · next sides =>
      rw [not_or] at sides
      rw [readKind] at read
      split at read
      · cases read
      · split at read
        · cases read
        · next found =>
          repeat' split at read
          all_goals cases read
          exact ⟨sides.1, sides.2, (Option.filter_eq_some_iff.1 found).2⟩
  · cases read

namespace Contents

/-- Whether a header that has been read is valid. -/
def HasValidHeader (contents : Contents) : Prop :=
  ∀ header, contents.header = some header → header.IsValid

variable {contents after : Contents}

theorem HasValidHeader.read {chunk : Chunk} (valid : contents.HasValidHeader)
    (reads : contents.read chunk = .ok after) : after.HasValidHeader := by
  rw [Contents.read] at reads
  split at reads
  · split at reads
    · cases reads
    · obtain ⟨header, read, rfl⟩ := Outcome.map_eq_ok.1 reads
      rintro found ⟨⟩
      exact Header.isValid_of_ofBytes read
  · -- other chunks leave the header alone
    dsimp only at reads
    repeat' split at reads
    all_goals cases reads
    all_goals exact valid

/-- What every chunk keeps is kept up to the end. -/
theorem keeps_readAll {holds : Contents → Prop}
    (keeps : ∀ {chunk contents after}, holds contents → contents.read chunk = .ok after →
      holds after)
    {offset : Nat} {bytes : List UInt8} (isSo : holds contents)
    (reads : readAll offset contents bytes = .ok after) : holds after := by
  fun_induction Contents.readAll offset contents bytes with
  | case1 =>
    cases reads
    exact isSo
  | case2 => cases reads
  | case3 => cases reads
  | case4 _ _ _ _ _ _ _ _ next =>
    cases reads
    exact keeps isSo next
  | case5 _ _ _ _ _ _ _ _ next _ ih => exact ih (keeps isSo next) reads

theorem complete_eq_ok {header : Header} (complete : contents.complete = .ok header) :
    contents.header = some header ∧ contents.ended = true := by
  rw [Contents.complete] at complete
  split at complete
  · cases complete
  · next found =>
    split at complete
    · cases complete
    · next ended =>
      repeat' split at complete
      all_goals cases complete
      exact ⟨found, by simpa using ended⟩

end Contents

/-! ## Rows -/

theorem length_restoreFrom (filter : Filter) {lefts corners aboves differences : List UInt8}
    (left : lefts ≠ []) (corner : differences.length ≤ corners.length)
    (above : differences.length ≤ aboves.length) :
    (filter.restoreFrom lefts corners aboves differences).length = differences.length := by
  induction differences generalizing lefts corners aboves with
  | nil =>
    rcases lefts with _ | _ <;> rcases corners with _ | _ <;> rcases aboves with _ | _ <;> rfl
  | cons difference differences ih =>
    obtain ⟨left, lefts, rfl⟩ := List.exists_cons_of_ne_nil left
    rcases corners with _ | ⟨_, corners⟩
    · simp at corner
    rcases aboves with _ | ⟨_, aboves⟩
    · simp at above
    rw [List.length_cons, List.length_cons] at corner above
    simp only [Filter.restoreFrom, List.length_cons]
    rw [ih (by simp) (by omega) (by omega)]

theorem length_restore (filter : Filter) {reach : Nat} (positive : 0 < reach)
    {above differences : List UInt8} (length : differences.length ≤ above.length) :
    (filter.restore reach above differences).length = differences.length := by
  have outside : List.replicate reach (0 : UInt8) ≠ [] := by
    rw [List.ne_nil_iff_length_pos, List.length_replicate]
    exact positive
  refine length_restoreFrom filter outside ?_ length
  rw [List.length_append]
  omega

theorem length_unfilterRows {stride reach count : Nat} (positive : 0 < reach)
    {above data : List UInt8} {rows : List (List UInt8)} (aboveLength : above.length = stride)
    (length : data.length = count * (stride + 1))
    (restored : unfilterRows stride reach count above data = .ok rows) :
    rows.flatten.length = count * stride := by
  induction count generalizing above data rows with
  | zero =>
    cases restored
    simp
  | succ count ih =>
    rw [Nat.succ_mul] at length
    obtain ⟨byte, data, rfl⟩ := List.exists_cons_of_length_pos (l := data) (by omega)
    rw [List.length_cons] at length
    rw [unfilterRows] at restored
    split at restored
    · cases restored
    · next filter _ =>
      obtain ⟨others, othersOk, made⟩ := Outcome.bind_eq_ok.1 restored
      cases made
      have taken : (data.take stride).length = stride := by
        rw [List.length_take]
        omega
      have row := length_restore filter positive (taken.trans aboveLength.symm).le
      have rest : (data.drop stride).length = count * (stride + 1) := by
        rw [List.length_drop]
        omega
      rw [List.flatten_cons, List.length_append, row, taken,
        ih (row.trans taken) rest othersOk, Nat.succ_mul, Nat.add_comm]

theorem length_unfilter {stride reach count : Nat} (positive : 0 < reach) {data raw : List UInt8}
    (length : data.length = count * (stride + 1))
    (restored : unfilter stride reach data = .ok raw) :
    raw.length = count * stride := by
  obtain ⟨rows, rowsOk, made⟩ := Outcome.bind_eq_ok.1 restored
  cases made
  have size : data.length / (stride + 1) = count := by
    rw [length]
    exact Nat.mul_div_cancel _ (Nat.succ_pos stride)
  rw [size] at rowsOk
  exact length_unfilterRows positive List.length_replicate length rowsOk

theorem Header.reach_pos (header : Header) : 0 < header.reach := by
  rw [reach]
  omega

/-! ## Images -/

/-- What stands behind the signature is read. -/
theorem decode_signature (rest : List UInt8) :
    decode (signature ++ rest) = Contents.readAll signature.length {} rest >>= ofContents := by
  have signed : signature.isPrefixOf (signature ++ rest) = true :=
    List.isPrefixOf_iff_prefix.2 (List.prefix_append _ _)
  rw [decode, if_pos signed, List.drop_left]

/-- An image is made of what stands behind the signature. -/
theorem exists_contents_of_decode {bytes : List UInt8} {png : Png}
    (decoded : decode bytes = .ok png) :
    ∃ rest contents, bytes = signature ++ rest ∧
      Contents.readAll signature.length {} rest = .ok contents ∧ ofContents contents = .ok png := by
  have signed : signature.isPrefixOf bytes = true := by
    by_contra unsigned
    rw [decode, if_neg unsigned] at decoded
    cases decoded
  obtain ⟨rest, rfl⟩ := List.isPrefixOf_iff_prefix.1 signed
  rw [decode_signature] at decoded
  obtain ⟨contents, reads, made⟩ := Outcome.bind_eq_ok.1 decoded
  exact ⟨rest, contents, rfl, reads, made⟩

/-- Whether an image has a valid header, and rows of the length and the number that it tells. -/
structure IsWhole (png : Png) : Prop where
  header : png.header.IsValid
  length : png.raw.length = png.header.height.toNat * png.header.stride

/-- An image has the header that was read, up to the end, and the rows that it tells. -/
theorem ofContents_eq_ok {contents : Contents} {png : Png} (made : ofContents contents = .ok png) :
    (contents.header = some png.header ∧ contents.ended = true) ∧
      png.raw.length = png.header.height.toNat * png.header.stride := by
  obtain ⟨header, complete, made⟩ := Outcome.bind_eq_ok.1 made
  dsimp only at made
  split at made
  · cases made
  · obtain ⟨data, -, made⟩ := Outcome.bind_eq_ok.1 made
    split at made
    · cases made
    · next length =>
      obtain ⟨raw, restored, made⟩ := Outcome.bind_eq_ok.1 made
      cases made
      exact ⟨Contents.complete_eq_ok complete,
        length_unfilter header.reach_pos (not_not.1 length) restored⟩

/-- What is decoded is whole. -/
theorem isWhole_of_decode {bytes : List UInt8} {png : Png} (decoded : decode bytes = .ok png) :
    png.IsWhole := by
  obtain ⟨rest, contents, -, reads, made⟩ := exists_contents_of_decode decoded
  obtain ⟨⟨isHeader, -⟩, length⟩ := ofContents_eq_ok made
  have empty : Contents.HasValidHeader {} := nofun
  exact ⟨Contents.keeps_readAll .read empty reads _ isHeader, length⟩

theorem Header.stride_pos {header : Header} (valid : header.IsValid) : 0 < header.stride := by
  have columns : header.width.toNat ≠ 0 := fun none => valid.wide (UInt32.toNat_inj.1 none)
  have bits : 0 < header.width.toNat * header.color.channels * header.depth.bits := by
    refine Nat.mul_pos (Nat.mul_pos (by omega) ?_) ?_
    · cases header.color <;> decide
    · cases header.depth <;> decide
  rw [stride]
  omega

/-- An image that is made has the sides that its header tells, and one pixel per position. -/
theorem toImage_eq_ok {png : Png} {image : Image} (made : png.toImage = .ok image) :
    image.width = png.header.width ∧ image.height = png.header.height ∧ image.Sized := by
  obtain ⟨pixels, -, made⟩ := Outcome.bind_eq_ok.1 made
  dsimp only at made
  split at made
  · cases made
  · next sized =>
    cases made
    exact ⟨rfl, rfl, not_not.1 sized⟩

end Png

end Blockwright
