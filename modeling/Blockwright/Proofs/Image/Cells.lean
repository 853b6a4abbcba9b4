import Mathlib.Algebra.BigOperators.Intervals
import Mathlib.Algebra.Order.BigOperators.Group.Finset
import Blockwright.Proofs.Image.Strict

/-!
# Cells of fingerprints

The bounds of the cells cut each side of an image into four spans without gaps, whether or not the
side is a multiple of four. Every position of an image with sides below `2 ^ 30` therefore counts
for exactly one cell, and the words that sum up the channels of a cell are wide enough.
-/

namespace Blockwright

namespace Fingerprint

open Finset

/-! ## Spans of a side -/

section Spans

variable {index side : UInt32} {place : ℕ}

/-- Where a cell begins along a side. -/
def edge (index side : UInt32) : ℕ := index.toNat * side.toNat / 4

/-- A bound is where the cell begins, unless the product outgrows the word. -/
theorem bound?_eq (index side : UInt32) :
    bound? index side =
      if index.toNat * side.toNat < UInt32.size then some (edge index side) else none := rfl

/-- The last bound of a side does not fit the word if the side has `2 ^ 30` places or more. -/
theorem bound?_eq_none : bound? 4 side = none ↔ 2 ^ 30 ≤ side.toNat := by
  have four : (4 : UInt32).toNat = 4 := rfl
  rw [bound?_eq, four, UInt32.size]
  split <;> simp <;> omega

/-- The bounds along a side all fit the word exactly if it is shorter than `2 ^ 30`. -/
theorem bound?_eq_edge_iff (side : UInt32) :
    (∀ index ≤ 4, bound? index side = some (edge index side)) ↔ side.toNat < 2 ^ 30 := by
  constructor
  · intro fits
    by_contra long
    have last := fits 4 (by decide)
    rw [bound?_eq_none.2 (Nat.le_of_not_lt long)] at last
    cases last
  · intro short index isBound
    have early : index.toNat ≤ 4 := UInt32.le_iff_toNat_le.1 isBound
    have product := Nat.mul_le_mul_right side.toNat early
    rw [bound?_eq, if_pos]
    rw [UInt32.size]
    omega

/-- Whether a place along a side lies between the bounds of a cell. -/
def Spans (index side : UInt32) (place : ℕ) : Prop :=
  edge index side ≤ place ∧ place < edge (index + 1) side

instance (index side : UInt32) (place : ℕ) : Decidable (Spans index side place) :=
  inferInstanceAs (Decidable (_ ∧ _))

theorem toNat_succ (isCell : index < 4) : (index + 1).toNat = index.toNat + 1 := by
  have early : index.toNat < 4 := UInt32.lt_iff_toNat_lt.1 isCell
  rw [UInt32.toNat_add]
  exact Nat.mod_eq_of_lt (by simp; omega)

theorem edge_succ (isCell : index < 4) :
    edge (index + 1) side = (index.toNat + 1) * side.toNat / 4 := by
  rw [edge, toNat_succ isCell]

theorem bounds_eq (short : side.toNat < 2 ^ 30) (isCell : index < 4) :
    bound? index side = some (edge index side) ∧
      bound? (index + 1) side = some (edge (index + 1) side) := by
  have fits := (bound?_eq_edge_iff side).2 short
  have isBound : index + 1 ≤ 4 := by
    rw [UInt32.le_iff_toNat_le, toNat_succ isCell]
    exact UInt32.lt_iff_toNat_lt.1 isCell
  exact ⟨fits index (UInt32.le_of_lt isCell), fits (index + 1) isBound⟩

theorem spans_iff (nonzero : side ≠ 0) (isCell : index < 4) :
    Spans index side place ↔ (4 * place + 3) / side.toNat = index.toNat := by
  have positive : 0 < side.toNat := UInt32.pos_iff_ne_zero.2 nonzero
  have next := Nat.succ_mul index.toNat side.toNat
  -- a quarter is at most `place`, rounded down, if the whole is at most `4 * place + 3`
  rw [Spans, edge_succ isCell, edge, Nat.div_eq_iff positive, next]
  omega

theorem existsUnique_spans (nonzero : side ≠ 0) (inside : place < side.toNat) :
    ∃! index : UInt32, index < 4 ∧ Spans index side place := by
  have positive : 0 < side.toNat := UInt32.pos_iff_ne_zero.2 nonzero
  have early : (4 * place + 3) / side.toNat < 4 := by
    rw [Nat.div_lt_iff_lt_mul positive]
    omega
  have exact : (UInt32.ofNat ((4 * place + 3) / side.toNat)).toNat =
      (4 * place + 3) / side.toNat :=
    UInt32.toNat_ofNat_of_lt' (early.trans (by decide))
  have isCell : UInt32.ofNat ((4 * place + 3) / side.toNat) < 4 := by
    rw [UInt32.lt_iff_toNat_lt, exact]
    exact early
  refine ⟨_, ⟨isCell, (spans_iff nonzero isCell).2 exact.symm⟩, ?_⟩
  rintro index ⟨isOther, spans⟩
  exact UInt32.toNat_inj.1 (((spans_iff nonzero isOther).1 spans).symm.trans exact.symm)

theorem edges_le (isCell : index < 4) :
    edge index side ≤ edge (index + 1) side ∧ edge (index + 1) side ≤ side.toNat ∧
      edge (index + 1) side - edge index side ≤ side.toNat / 4 + 1 := by
  have early : index.toNat < 4 := UInt32.lt_iff_toNat_lt.1 isCell
  have last : (index.toNat + 1) * side.toNat ≤ 4 * side.toNat := Nat.mul_le_mul_right _ early
  rw [edge_succ isCell, edge]
  rw [Nat.succ_mul] at last ⊢
  omega

/-- The bounds of a cell differ unless the side is shorter than the number of cells. -/
theorem edge_lt (isCell : index < 4) (long : 4 ≤ side.toNat) :
    edge index side < edge (index + 1) side := by
  rw [edge_succ isCell, edge, Nat.succ_mul]
  omega

end Spans

/-! ## Positions of a cell -/

section Positions

variable {image : Image} {column row : UInt32}

/-- Whether a position lies in a cell. -/
def Covers (image : Image) (column row : UInt32) (position : ℕ × ℕ) : Prop :=
  Spans column image.width position.1 ∧ Spans row image.height position.2

instance (image : Image) (column row : UInt32) (position : ℕ × ℕ) :
    Decidable (Covers image column row position) :=
  inferInstanceAs (Decidable (_ ∧ _))

/-- The positions of an image. -/
def everywhere (image : Image) : Finset (ℕ × ℕ) :=
  range image.width.toNat ×ˢ range image.height.toNat

/-- The positions of an image that lie in a cell. -/
def positions (image : Image) (column row : UInt32) : Finset (ℕ × ℕ) :=
  (everywhere image).filter (Covers image column row)

theorem existsUnique_covers (wide : image.width ≠ 0) (high : image.height ≠ 0) {position : ℕ × ℕ}
    (inside : position ∈ everywhere image) :
    ∃! cell : UInt32 × UInt32, (cell.1 < 4 ∧ cell.2 < 4) ∧
      Covers image cell.1 cell.2 position := by
  obtain ⟨isColumn, isRow⟩ := mem_product.1 inside
  obtain ⟨column, ⟨left, spansColumn⟩, onlyColumn⟩ :=
    existsUnique_spans wide (mem_range.1 isColumn)
  obtain ⟨row, ⟨top, spansRow⟩, onlyRow⟩ := existsUnique_spans high (mem_range.1 isRow)
  refine ⟨(column, row), ⟨⟨left, top⟩, spansColumn, spansRow⟩, ?_⟩
  rintro ⟨other, another⟩ ⟨⟨otherLeft, otherTop⟩, coversColumn, coversRow⟩
  rw [onlyColumn other ⟨otherLeft, coversColumn⟩, onlyRow another ⟨otherTop, coversRow⟩]

/-- Whether indices are those of a cell, in an image whose sides are shorter than `2 ^ 30`. -/
structure IsCell (image : Image) (column row : UInt32) : Prop where
  narrow : image.width.toNat < 2 ^ 30
  low : image.height.toNat < 2 ^ 30
  isColumn : column < 4
  isRow : row < 4

namespace IsCell

theorem positions_eq (isCell : IsCell image column row) :
    positions image column row =
      Ico (edge column image.width) (edge (column + 1) image.width) ×ˢ
        Ico (edge row image.height) (edge (row + 1) image.height) := by
  obtain ⟨-, right, -⟩ := @edges_le _ image.width isCell.isColumn
  obtain ⟨-, bottom, -⟩ := @edges_le _ image.height isCell.isRow
  ext ⟨x, y⟩
  simp only [positions, everywhere, mem_filter, mem_product, mem_range, mem_Ico, Covers, Spans]
  omega

theorem card_le (isCell : IsCell image column row) :
    (positions image column row).card ≤ 2 ^ 28 * 2 ^ 28 := by
  obtain ⟨-, -, across⟩ := @edges_le _ image.width isCell.isColumn
  obtain ⟨-, -, down⟩ := @edges_le _ image.height isCell.isRow
  have narrow := isCell.narrow
  have low := isCell.low
  rw [isCell.positions_eq, card_product, Nat.card_Ico, Nat.card_Ico]
  exact Nat.mul_le_mul (by omega) (by omega)

/-- Cells have positions unless a side is shorter than the number of cells. -/
theorem nonempty (isCell : IsCell image column row) (wide : 4 ≤ image.width.toNat)
    (high : 4 ≤ image.height.toNat) : (positions image column row).Nonempty := by
  rw [isCell.positions_eq, nonempty_product, nonempty_Ico, nonempty_Ico]
  exact ⟨edge_lt isCell.isColumn wide, edge_lt isCell.isRow high⟩

end IsCell

end Positions

/-! ## Sums of a cell -/

section Sums

variable {image : Image} {column row : UInt32} {sum : Sums → UInt64} {value : Pixel → ℕ}

/-- Whether a sum grows by a value with every pixel. -/
def Adds (sum : Sums → UInt64) (value : Pixel → ℕ) : Prop :=
  ∀ sums pixel, sum (sums.add pixel) = sum sums + UInt64.ofNat (value pixel)

theorem Adds.addRow (adds : Adds sum value) (y columns x : ℕ) (sums : Sums) :
    sum (addRow image y columns x sums) =
      sum sums + UInt64.ofNat (∑ i ∈ Ico x (x + columns), value (image.get i y)) := by
  induction columns generalizing x sums with
  | zero => simp [Fingerprint.addRow]
  | succ columns ih =>
    have first := sum_eq_sum_Ico_succ_bot (show x < x + (columns + 1) by omega)
      fun i => value (image.get i y)
    rw [Fingerprint.addRow, ih, adds, first, UInt64.ofNat_add, UInt64.add_assoc]
    congr 5
    omega

theorem Adds.addRows (adds : Adds sum value) (columns x rows y : ℕ) (sums : Sums) :
    sum (addRows image columns x rows y sums) = sum sums +
      UInt64.ofNat (∑ j ∈ Ico y (y + rows), ∑ i ∈ Ico x (x + columns), value (image.get i j)) := by
  induction rows generalizing y sums with
  | zero => simp [Fingerprint.addRows]
  | succ rows ih =>
    have first := sum_eq_sum_Ico_succ_bot (show y < y + (rows + 1) by omega)
      fun j => ∑ i ∈ Ico x (x + columns), value (image.get i j)
    rw [Fingerprint.addRows, ih, adds.addRow, first, UInt64.ofNat_add, UInt64.add_assoc]
    congr 5
    omega

/-- The sums of the pixels between the bounds of a cell. -/
def cellSums (image : Image) (column row : UInt32) : Sums :=
  let left := edge column image.width
  let top := edge row image.height
  Fingerprint.addRows image (edge (column + 1) image.width - left) left
    (edge (row + 1) image.height - top) top {}

theorem IsCell.cellSums?_eq (isCell : IsCell image column row) :
    cellSums? image column row = some (cellSums image column row) := by
  obtain ⟨left, right⟩ := bounds_eq isCell.narrow isCell.isColumn
  obtain ⟨top, bottom⟩ := bounds_eq isCell.low isCell.isRow
  simp only [cellSums?, left, right, top, bottom]
  rfl

theorem Adds.cellSums (adds : Adds sum value) (starts : sum {} = 0)
    (small : ∀ pixel, value pixel ≤ 255) (isCell : IsCell image column row) :
    (sum (cellSums image column row)).toNat =
      ∑ place ∈ positions image column row, value (image.get place.1 place.2) := by
  obtain ⟨left, -, -⟩ := @edges_le _ image.width isCell.isColumn
  obtain ⟨top, -, -⟩ := @edges_le _ image.height isCell.isRow
  have loops : sum (Fingerprint.cellSums image column row) =
      UInt64.ofNat (∑ place ∈ positions image column row, value (image.get place.1 place.2)) := by
    rw [Fingerprint.cellSums, adds.addRows, starts, UInt64.zero_add, Nat.add_sub_cancel' left,
      Nat.add_sub_cancel' top, isCell.positions_eq, sum_product_right]
  have few := isCell.card_le
  have most := sum_le_card_nsmul (positions image column row)
    (fun place => value (image.get place.1 place.2)) 255 fun place _ => small _
  rw [smul_eq_mul] at most
  rw [loops, UInt64.toNat_ofNat_of_lt']
  simp only [UInt64.size]
  omega

/-- The channels of a pixel. -/
def channels : List (Pixel → UInt8) := [Pixel.red, Pixel.green, Pixel.blue, Pixel.alpha]

/-- The average of a channel over positions of an image in sixteen steps, rounded down. -/
def mean (image : Image) (places : Finset (ℕ × ℕ)) (channel : Pixel → UInt8) : ℕ :=
  (∑ place ∈ places, (channel (image.get place.1 place.2)).toNat) / places.card / 16

theorem mean_le (image : Image) (places : Finset (ℕ × ℕ)) (channel : Pixel → UInt8) :
    mean image places channel ≤ 15 := by
  have most :
      ∑ place ∈ places, (channel (image.get place.1 place.2)).toNat ≤ places.card • 255 :=
    sum_le_card_nsmul _ _ _ fun place _ => by
      have := (channel (image.get place.1 place.2)).toNat_lt
      omega
  have average := Nat.div_le_of_le_mul most
  rw [mean]
  omega

namespace IsCell

/-- The number of pixels of a cell is counted exactly. -/
theorem count_eq (isCell : IsCell image column row) :
    (cellSums image column row).count.toNat = (positions image column row).card := by
  have adds : Adds Sums.count fun _ => 1 := fun _ _ => rfl
  rw [adds.cellSums rfl (fun _ => by decide) isCell, card_eq_sum_ones]

theorem average_eq (isCell : IsCell image column row) (channel : Pixel → UInt8)
    (adds : ∀ sums pixel, sum (sums.add pixel) = sum sums + (channel pixel).toUInt64)
    (starts : sum {} = 0) :
    ((cellSums image column row).average sum).toNat =
      mean image (positions image column row) channel := by
  have adds : Adds sum fun pixel => (channel pixel).toNat := fun sums pixel => by
    rw [adds, UInt64.ofNat_uInt8ToNat]
  have small : ∀ pixel, (channel pixel).toNat ≤ 255 :=
    fun pixel => Nat.le_of_lt_succ (channel pixel).toNat_lt
  have exact := adds.cellSums starts small isCell
  have steps := mean_le image (positions image column row) channel
  have quotient :
      ((sum (cellSums image column row) / (cellSums image column row).count) >>> 4).toNat =
        mean image (positions image column row) channel := by
    rw [UInt64.toNat_shiftRight, UInt64.toNat_div, exact, isCell.count_eq, mean]
    exact Nat.shiftRight_eq_div_pow _ 4
  rw [Sums.average, UInt64.toNat_toUInt8, quotient]
  exact Nat.mod_eq_of_lt (by omega)

theorem cell_eq_clear (isCell : IsCell image column row) (empty : positions image column row = ∅) :
    (cellSums image column row).cell = Pixel.clear := by
  have count := isCell.count_eq
  rw [empty, card_empty] at count
  rw [Sums.cell, if_pos (UInt64.toNat_inj.1 count)]

theorem cell_eq_mean (isCell : IsCell image column row)
    (nonempty : (positions image column row).Nonempty) :
    ∀ channel ∈ channels, (channel (cellSums image column row).cell).toNat =
      mean image (positions image column row) channel := by
  have counted : (cellSums image column row).count ≠ 0 := by
    intro zero
    have count := isCell.count_eq
    rw [zero] at count
    exact nonempty.card_pos.ne count
  rw [Sums.cell, if_neg counted]
  simp only [channels, List.forall_mem_cons, List.not_mem_nil, false_imp_iff, implies_true,
    and_true]
  exact ⟨isCell.average_eq _ (fun _ _ => rfl) rfl, isCell.average_eq _ (fun _ _ => rfl) rfl,
    isCell.average_eq _ (fun _ _ => rfl) rfl, isCell.average_eq _ (fun _ _ => rfl) rfl⟩

end IsCell

end Sums

theorem lt_four_iff {index : UInt32} : index < 4 ↔ index ∈ [0, 1, 2, 3] := by
  simp only [UInt32.lt_iff_toNat_lt, List.mem_cons, List.not_mem_nil, or_false,
    ← UInt32.toNat_inj, UInt32.toNat_ofNat]
  omega

/-- The fingerprint with the averages of all cells. -/
def grid (image : Image) : Fingerprint where
  cells := [0, 1, 2, 3].flatMap fun row =>
    [0, 1, 2, 3].map fun column => (cellSums image column row).cell

theorem getElem?_cells (image : Image) {column row : UInt32} (isColumn : column < 4)
    (isRow : row < 4) :
    (grid image).cells[4 * row.toNat + column.toNat]? =
      some (cellSums image column row).cell := by
  have rows := lt_four_iff.1 isRow
  have columns := lt_four_iff.1 isColumn
  simp only [List.mem_cons, List.not_mem_nil, or_false] at rows columns
  rcases rows with rfl | rfl | rfl | rfl <;> rcases columns with rfl | rfl | rfl | rfl <;> rfl

theorem mapM_cells {image : Image} {sums? : UInt32 → UInt32 → Option Sums}
    (each : ∀ column < 4, ∀ row < 4, sums? column row = some (cellSums image column row)) :
    (do
      let rows ← [0, 1, 2, 3].mapM fun row =>
        [0, 1, 2, 3].mapM fun column => do return (← sums? column row).cell
      return { cells := rows.flatten }) = some (grid image) := by
  have cells : ∀ row ∈ ([0, 1, 2, 3] : List UInt32),
      ([0, 1, 2, 3].mapM fun column => do return (← sums? column row).cell) =
        some ([0, 1, 2, 3].map fun column => (cellSums image column row).cell) := by
    intro row isRow
    refine mapM_eq_some_map fun column isColumn => ?_
    rw [each column (lt_four_iff.2 isColumn) row (lt_four_iff.2 isRow)]
    rfl
  rw [mapM_eq_some_map cells, grid, List.flatMap_def]
  rfl

theorem ofImage?_eq {image : Image} (narrow : image.width.toNat < 2 ^ 30)
    (low : image.height.toNat < 2 ^ 30) : ofImage? image = some (grid image) :=
  mapM_cells fun _ isColumn _ isRow => IsCell.cellSums?_eq ⟨narrow, low, isColumn, isRow⟩

theorem mapM_eq_none {α β : Type} {compute : α → Option β} {inputs : List α}
    (missing : ∃ input ∈ inputs, compute input = none) : inputs.mapM compute = none := by
  induction inputs with
  | nil => simp at missing
  | cons input rest ih =>
    rw [List.mapM_cons]
    obtain ⟨other, isInput, none⟩ := missing
    rcases List.mem_cons.1 isInput with rfl | isRest
    · rw [none]
      rfl
    · rw [ih ⟨other, isRest, none⟩]
      cases compute input <;> rfl

theorem ofImage?_eq_none {image : Image}
    (long : 2 ^ 30 ≤ image.width.toNat ∨ 2 ^ 30 ≤ image.height.toNat) :
    ofImage? image = none := by
  have last : cellSums? image 3 3 = none := by
    have four : (3 : UInt32) + 1 = 4 := rfl
    rw [cellSums?, four]
    rcases long with long | long <;> rw [bound?_eq_none.2 long] <;>
      grind [Option.bind_eq_none_iff]
  have noRow : ([0, 1, 2, 3].mapM fun column => do
      return (← cellSums? image column 3).cell) = none :=
    mapM_eq_none ⟨3, by decide, by rw [last]; rfl⟩
  rw [ofImage?, mapM_eq_none ⟨3, by decide, noRow⟩]
  rfl

/-- An image has a fingerprint exactly if its sides are shorter than `2 ^ 30`. -/
theorem isSome_ofImage?_iff {image : Image} :
    (ofImage? image).isSome = true ↔
      image.width.toNat < 2 ^ 30 ∧ image.height.toNat < 2 ^ 30 := by
  constructor
  · intro isSome
    by_contra long
    rw [ofImage?_eq_none (by omega)] at isSome
    cases isSome
  · rintro ⟨narrow, low⟩
    rw [ofImage?_eq narrow low]
    rfl

/-! ## Pixels behind the bytes -/

section Strict

variable {image : Image} {x y : ℕ}

theorem strictRow?_eq (held : image.Held) (isRow : y < image.height.toNat) {columns : ℕ}
    (inside : x + columns ≤ image.width.toNat) (sums : Sums) :
    strictRow? image y columns x sums = some (addRow image y columns x sums) := by
  induction columns generalizing x sums with
  | zero => rfl
  | succ columns ih =>
    rw [strictRow?, held.get?_eq (by omega) isRow]
    exact ih (by omega) _

theorem strictRows?_eq (held : image.Held) {columns rows : ℕ}
    (inside : x + columns ≤ image.width.toNat) (all : y + rows ≤ image.height.toNat)
    (sums : Sums) :
    strictRows? image columns x rows y sums = some (addRows image columns x rows y sums) := by
  induction rows generalizing y sums with
  | zero => rfl
  | succ rows ih =>
    rw [strictRows?, strictRow?_eq held (by omega) inside]
    exact ih (by omega) _

theorem strictSums?_eq (held : image.Held) {column row : UInt32}
    (isCell : IsCell image column row) :
    strictSums? image column row = some (cellSums image column row) := by
  obtain ⟨left, right⟩ := bounds_eq isCell.narrow isCell.isColumn
  obtain ⟨top, bottom⟩ := bounds_eq isCell.low isCell.isRow
  obtain ⟨across, inside, -⟩ := @edges_le _ image.width isCell.isColumn
  obtain ⟨down, all, -⟩ := @edges_le _ image.height isCell.isRow
  simp only [strictSums?, left, right, top, bottom]
  exact strictRows?_eq held (by omega) (by omega) _

theorem strict?_eq (held : image.Held) (narrow : image.width.toNat < 2 ^ 30)
    (low : image.height.toNat < 2 ^ 30) : strict? image = some (grid image) :=
  mapM_cells fun _ isColumn _ isRow => strictSums?_eq held ⟨narrow, low, isColumn, isRow⟩

theorem held_of_short (sized : image.Sized) (narrow : image.width.toNat < 2 ^ 30)
    (low : image.height.toNat < 2 ^ 30) : image.Held := by
  have small := Nat.mul_lt_mul'' narrow low
  refine ⟨sized, ?_⟩
  rw [Image.area, Image.capacity, UInt64.size]
  omega

end Strict

/-- The cells of a fingerprint divide an image with sides below `2 ^ 30` among themselves. Every
position lies in one cell only, a cell with positions has the averages over these in sixteen steps,
and a cell without any is clear, which takes a side shorter than the number of cells. No pixel that
is asked for lies behind the bytes. -/
theorem ofImage_divides {image : Image} (sized : image.Sized) (wide : image.width ≠ 0)
    (high : image.height ≠ 0) (narrow : image.width.toNat < 2 ^ 30)
    (low : image.height.toNat < 2 ^ 30) :
    (∀ position ∈ everywhere image, ∃! cell : UInt32 × UInt32,
      (cell.1 < 4 ∧ cell.2 < 4) ∧ position ∈ positions image cell.1 cell.2) ∧
    ∃ fingerprint, ofImage? image = some fingerprint ∧ strict? image = some fingerprint ∧
      fingerprint.cells.length = 16 ∧
      ∀ column row : UInt32, column < 4 → row < 4 → ∃ cell,
        fingerprint.cells[4 * row.toNat + column.toNat]? = some cell ∧
        ((positions image column row).Nonempty → ∀ channel ∈ channels,
          (channel cell).toNat = mean image (positions image column row) channel ∧
          (channel cell).toNat ≤ 15) ∧
        (positions image column row = ∅ → cell = Pixel.clear ∧
          (image.width.toNat < 4 ∨ image.height.toNat < 4)) := by
  refine ⟨fun position inside => ?_, grid image, ofImage?_eq narrow low,
    strict?_eq (held_of_short sized narrow low) narrow low, rfl,
    fun column row isColumn isRow => ?_⟩
  · simpa only [positions, mem_filter, inside, true_and] using
      existsUnique_covers wide high inside
  · have isCell : IsCell image column row := ⟨narrow, low, isColumn, isRow⟩
    refine ⟨_, getElem?_cells image isColumn isRow, fun nonempty channel isChannel => ?_,
      fun empty => ⟨isCell.cell_eq_clear empty, ?_⟩⟩
    · rw [isCell.cell_eq_mean nonempty channel isChannel]
      exact ⟨rfl, mean_le image _ channel⟩
    · by_contra! long
      exact (isCell.nonempty long.1 long.2).ne_empty empty

/-- Five columns and three rows make the last cell of a row wider and the first cells of a column
empty. -/
theorem ofImage_divides_uneven :
    let image := Image.ofFn 5 3 fun x y => Pixel.solid ⟨40 * UInt8.ofNat x, 100 * UInt8.ofNat y, 7⟩
    positions image 3 1 = {(3, 0), (4, 0)} ∧ positions image 3 0 = ∅ ∧
      ∃ fingerprint, ofImage? image = some fingerprint ∧
        (∃ cell, fingerprint.cells[7]? = some cell ∧
          ∀ channel ∈ channels, (channel cell).toNat = mean image {(3, 0), (4, 0)} channel) ∧
        fingerprint.cells[3]? = some Pixel.clear := by
  intro image
  have two : positions image 3 1 = {(3, 0), (4, 0)} := by decide +kernel
  have none : positions image 3 0 = ∅ := by decide +kernel
  obtain ⟨-, fingerprint, isFingerprint, -, -, cells⟩ :=
    @ofImage_divides image (by decide +kernel) (by decide) (by decide) (by decide)
      (by decide)
  obtain ⟨cell, isCell, averages, -⟩ := cells 3 1 (by decide) (by decide)
  obtain ⟨empty, isEmpty, -, clear⟩ := cells 3 0 (by decide) (by decide)
  rw [two] at averages
  refine ⟨two, none, fingerprint, isFingerprint, ⟨cell, isCell, fun channel isChannel => ?_⟩, ?_⟩
  · exact (averages (Finset.insert_nonempty _ _) channel isChannel).1
  · rw [← (clear none).1]
    exact isEmpty

end Fingerprint

end Blockwright
