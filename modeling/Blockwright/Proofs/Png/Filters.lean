import Mathlib
import Blockwright.Png.Filter
import Blockwright.Proofs.Outcome

/-!
# Filtered rows

A filtered byte is the difference, modulo 256, between a byte and what is predicted from its
neighbors; a neighbor outside of the image is zero. Rows come back from their differences, whatever
filter each of them has, because a byte is restored after all that it is predicted from. Image data
is refused exactly for the first filter that is not one of the five.
-/

namespace Blockwright

namespace Png

/-! ## What filters do -/

/-- What the filter with a number predicts a byte as, from the byte on its left, the one above it
and the one above that on its left. The last filter takes the first of the three that is nearest to
left plus above minus corner. -/
def prediction (number : Fin 5) (left above corner : Nat) : Nat :=
  match number with
  | 0 => 0
  | 1 => left
  | 2 => above
  | 3 => (left + above) / 2
  | 4 =>
    let distance (byte : Nat) : Nat := ((left + above - corner : Int) - byte).natAbs
    (List.argmin distance [left, above, corner]).getD 0

/-- The byte that stands some places before a place of a row; zero if there is none. -/
def byteBefore (reach : Nat) (row : List UInt8) (place : Nat) : UInt8 :=
  if place < reach then 0 else row.getD (place - reach) 0

/-- The bytes of a row below another one, filtered. -/
def filterRow (number : Fin 5) (reach : Nat) (above row : List UInt8) : List UInt8 :=
  row.mapIdx fun place byte =>
    UInt8.ofInt (byte.toNat - prediction number (byteBefore reach row place).toNat
      (above.getD place 0).toNat (byteBefore reach above place).toNat)

/-- Image data: rows, each filtered below the one before it with the number of its filter in
front. -/
def filterRows (reach : Nat) : (above : List UInt8) → List (Fin 5 × List UInt8) → List UInt8
  | _, [] => []
  | above, (number, row) :: rest =>
    UInt8.ofNat number :: filterRow number reach above row ++ filterRows reach row rest

/-- The bytes in front of the rows of image data. -/
def filterBytes (stride count : Nat) (data : List UInt8) : List UInt8 :=
  (List.range count).map fun row => data.getD (row * (stride + 1)) 0

namespace Filter

/-- The filter with the given number. -/
def ofNumber : Fin 5 → Filter
  | 0 => .plain
  | 1 => .fromLeft
  | 2 => .fromAbove
  | 3 => .fromAverage
  | 4 => .fromNearest

theorem ofByte?_ofNat (number : Fin 5) : ofByte? (UInt8.ofNat number) = some (ofNumber number) := by
  fin_cases number <;> rfl

theorem ofByte?_eq_none {byte : UInt8} : ofByte? byte = none ↔ 4 < byte := by
  simp only [ofByte?, UInt8.lt_iff_toNat_lt, ← UInt8.toNat_inj, UInt8.reduceToNat]
  split_ifs <;> simp <;> omega

/-! ## Predictions -/

theorem argmin_of_three (f : Nat → Nat) (a b c : Nat) :
    (List.argmin f [a, b, c]).getD 0 =
      if f a ≤ f b ∧ f a ≤ f c then a else if f b ≤ f c then b else c := by
  simp only [List.argmin, List.foldl, List.argAux]
  by_cases nearer : f b < f a
  · rw [if_pos nearer, if_neg (by omega)]
    by_cases nearest : f c < f b
    · simp [nearest]
    · simp [nearest, Nat.not_lt.1 nearest]
  · rw [if_neg nearer]
    by_cases nearest : f c < f a
    · rw [if_neg (by omega), if_neg (by omega)]
      simp [nearest]
    · simp [nearest, Nat.not_lt.1 nearest, Nat.not_lt.1 nearer]

theorem toNat_predict (number : Fin 5) (left above corner : UInt8) :
    ((ofNumber number).predict left above corner).toNat =
      prediction number left.toNat above.toNat corner.toNat := by
  match number with
  | 0 => rfl
  | 1 => rfl
  | 2 => rfl
  | 3 =>
    have leftBound := left.toNat_lt
    have aboveBound := above.toNat_lt
    exact UInt8.toNat_ofNat_of_lt' (by simp only [UInt8.size]; omega)
  | 4 =>
    rw [prediction, argmin_of_three, ofNumber, predict, nearestOf]
    split_ifs <;> rfl

theorem ofInt_sub_toNat (byte predicted : UInt8) :
    UInt8.ofInt (byte.toNat - predicted.toNat) = byte - predicted := by
  have bound := predicted.toNat_lt
  rw [← UInt8.toNat_inj, UInt8.toNat_sub]
  simp only [UInt8.ofInt, UInt8.toNat_ofNat']
  omega

/-! ## Rows -/

variable {filter : Filter} {reach : Nat} {lefts corners aboves above row : List UInt8}

theorem applyFrom_eq_mapIdx (left : lefts ≠ []) (corner : row.length ≤ corners.length)
    (inside : row.length ≤ aboves.length) :
    filter.applyFrom lefts corners aboves row = row.mapIdx fun place byte =>
      byte - filter.predict ((lefts ++ row).getD place 0) (aboves.getD place 0)
        (corners.getD place 0) := by
  induction row generalizing lefts corners aboves with
  | nil => cases lefts <;> cases corners <;> cases aboves <;> rfl
  | cons byte row ih =>
    obtain ⟨first, lefts, rfl⟩ := List.exists_cons_of_ne_nil left
    obtain ⟨cornerFirst, corners, rfl⟩ := List.exists_cons_of_length_pos (Nat.zero_lt_of_lt corner)
    obtain ⟨aboveFirst, aboves, rfl⟩ := List.exists_cons_of_length_pos (Nat.zero_lt_of_lt inside)
    rw [applyFrom, ih (by simp) (Nat.le_of_succ_le_succ corner) (Nat.le_of_succ_le_succ inside),
      List.mapIdx_cons]
    simp

/-- A byte that is restored is the one on the left of a later byte, as it was when the differences
were made. -/
theorem restoreFrom_applyFrom (left : lefts ≠ []) (corner : row.length ≤ corners.length)
    (inside : row.length ≤ aboves.length) :
    filter.restoreFrom lefts corners aboves (filter.applyFrom lefts corners aboves row) = row := by
  induction row generalizing lefts corners aboves with
  | nil => cases lefts <;> cases corners <;> cases aboves <;> rfl
  | cons byte row ih =>
    obtain ⟨first, lefts, rfl⟩ := List.exists_cons_of_ne_nil left
    obtain ⟨cornerFirst, corners, rfl⟩ := List.exists_cons_of_length_pos (Nat.zero_lt_of_lt corner)
    obtain ⟨aboveFirst, aboves, rfl⟩ := List.exists_cons_of_length_pos (Nat.zero_lt_of_lt inside)
    rw [applyFrom, restoreFrom, UInt8.sub_add_cancel,
      ih (by simp) (Nat.le_of_succ_le_succ corner) (Nat.le_of_succ_le_succ inside)]

theorem restore_apply (positive : 0 < reach) (length : row.length ≤ above.length) :
    filter.restore reach above (filter.apply reach above row) = row := by
  refine restoreFrom_applyFrom ?_ ?_ length
  · simpa using Nat.ne_of_gt positive
  · rw [List.length_append]
    omega

theorem length_apply (positive : 0 < reach) (length : row.length ≤ above.length) :
    (filter.apply reach above row).length = row.length := by
  rw [apply, applyFrom_eq_mapIdx (by simpa using Nat.ne_of_gt positive)
    (by rw [List.length_append]; omega) length, List.length_mapIdx]

theorem getD_outside_append (row : List UInt8) (place : Nat) :
    (List.replicate reach 0 ++ row).getD place 0 = byteBefore reach row place := by
  rw [byteBefore, List.getD_eq_getElem?_getD, List.getElem?_append, List.length_replicate]
  split
  · next outside => simp [outside]
  · rw [List.getD_eq_getElem?_getD]

theorem filterRow_eq_apply (number : Fin 5) (positive : 0 < reach)
    (length : row.length ≤ above.length) :
    filterRow number reach above row = (ofNumber number).apply reach above row := by
  rw [apply, applyFrom_eq_mapIdx (by simpa using Nat.ne_of_gt positive)
    (by rw [List.length_append]; omega) length, filterRow]
  simp only [getD_outside_append, ← toNat_predict, ofInt_sub_toNat]

end Filter

variable {stride reach count : Nat} {data : List UInt8}

theorem filterRows_nil (reach stride : Nat) (rows : List (Fin 5 × List UInt8)) :
    filterRows reach [] rows = filterRows reach (List.replicate stride 0) rows := by
  have zeros (place : Nat) : (List.replicate stride (0 : UInt8)).getD place 0 = 0 := by
    rw [List.getD_eq_getElem?_getD, List.getElem?_replicate]
    split <;> rfl
  have none (place : Nat) : ([] : List UInt8).getD place 0 = 0 := rfl
  cases rows with
  | nil => rfl
  | cons first rest => simp only [filterRows, filterRow, byteBefore, zeros, none]

/-! ## Image data -/

theorem unfilterRows_filterRows (positive : 0 < reach) {rows : List (Fin 5 × List UInt8)}
    (lengths : ∀ row ∈ rows, row.2.length = stride) {above : List UInt8}
    (length : above.length = stride) :
    unfilterRows stride reach rows.length above (filterRows reach above rows) =
      .ok (rows.map Prod.snd) := by
  induction rows generalizing above with
  | nil => rfl
  | cons first rest ih =>
    obtain ⟨number, row⟩ := first
    obtain ⟨rowLength, restLengths⟩ := List.forall_mem_cons.1 lengths
    have fits : row.length ≤ above.length := by rw [rowLength, length]
    have filtered := Filter.filterRow_eq_apply number positive fits
    have size : ((Filter.ofNumber number).apply reach above row).length = stride := by
      rw [Filter.length_apply positive fits, rowLength]
    rw [filterRows, filtered, List.cons_append, List.length_cons, unfilterRows,
      Filter.ofByte?_ofNat]
    dsimp only
    rw [List.take_left' size, List.drop_left' size, Filter.restore_apply positive fits,
      ih restLengths rowLength]
    rfl

theorem length_filterRows {rows : List (Fin 5 × List UInt8)}
    (lengths : ∀ row ∈ rows, row.2.length = stride) (reach : Nat) (above : List UInt8) :
    (filterRows reach above rows).length = rows.length * (stride + 1) := by
  induction rows generalizing above with
  | nil => simp [filterRows]
  | cons first rest ih =>
    obtain ⟨number, row⟩ := first
    obtain ⟨rowLength, restLengths⟩ := List.forall_mem_cons.1 lengths
    rw [filterRows, List.length_append, ih restLengths, List.length_cons, filterRow,
      List.length_mapIdx, rowLength, List.length_cons, Nat.succ_mul, Nat.add_comm]

theorem filterBytes_cons (stride count : Nat) (byte : UInt8) (data : List UInt8) :
    filterBytes stride (count + 1) (byte :: data) =
      byte :: filterBytes stride count (data.drop stride) := by
  have behind (row : Nat) : (byte :: data).getD ((row + 1) * (stride + 1)) 0 =
      (data.drop stride).getD (row * (stride + 1)) 0 := by
    rw [Nat.succ_mul, ← Nat.add_assoc, List.getD_cons_succ, List.getD_eq_getElem?_getD,
      List.getD_eq_getElem?_getD, List.getElem?_drop, Nat.add_comm]
  rw [filterBytes, List.range_succ_eq_map, List.map_cons, List.map_map, filterBytes]
  simp only [Function.comp_def, Nat.succ_eq_add_one, behind]
  simp

theorem unfilterRows_eq_error {above : List UInt8} (length : data.length = count * (stride + 1))
    {error : Error} :
    unfilterRows stride reach count above data = .error error ↔
      ∃ byte, (filterBytes stride count data).find? (4 < ·) = some byte ∧
        error = .badFilter byte := by
  induction count generalizing above data with
  | zero => simp [unfilterRows, filterBytes]
  | succ count ih =>
    rw [Nat.succ_mul] at length
    obtain ⟨byte, data, rfl⟩ := List.exists_cons_of_length_pos (l := data) (by omega)
    have restLength : (data.drop stride).length = count * (stride + 1) := by
      rw [List.length_cons] at length
      rw [List.length_drop]
      omega
    rw [unfilterRows, filterBytes_cons]
    cases known : Filter.ofByte? byte with
    | none =>
      simp [Filter.ofByte?_eq_none.1 known, eq_comm]
    | some filter =>
      have small : ¬ 4 < byte := by
        rw [← Filter.ofByte?_eq_none, known]
        exact Option.some_ne_none filter
      rw [List.find?_cons_of_neg (by simpa using small), ← ih restLength]
      exact Outcome.bind_pure_eq_error

theorem count_of_length (length : data.length = count * (stride + 1)) :
    data.length / (stride + 1) = count := by
  rw [length]
  exact Nat.mul_div_cancel _ (Nat.succ_pos stride)

theorem unfilter_filterRows (positive : 0 < reach) {rows : List (Fin 5 × List UInt8)}
    (lengths : ∀ row ∈ rows, row.2.length = stride) :
    unfilter stride reach (filterRows reach [] rows) = .ok (rows.flatMap Prod.snd) := by
  rw [unfilter, count_of_length (length_filterRows lengths reach []), filterRows_nil reach stride,
    unfilterRows_filterRows positive lengths List.length_replicate, List.flatMap_def]
  rfl

theorem unfilter_eq_error (length : data.length = count * (stride + 1)) {error : Error} :
    unfilter stride reach data = .error error ↔
      ∃ byte, (filterBytes stride count data).find? (4 < ·) = some byte ∧
        error = .badFilter byte := by
  rw [unfilter, count_of_length length, ← unfilterRows_eq_error length]
  exact Outcome.bind_pure_eq_error

/-- Without prediction the differences are the bytes. -/
theorem filterRows_plain (reach : Nat) (above : List UInt8) (rows : List (List UInt8)) :
    filterRows reach above (rows.map fun row => (0, row)) =
      rows.flatMap fun row => Filter.plain.byte :: row := by
  have same (byte : UInt8) : UInt8.ofInt byte.toNat = byte := by
    simpa using Filter.ofInt_sub_toNat byte 0
  induction rows generalizing above with
  | nil => rfl
  | cons row rest ih =>
    have kept : filterRow 0 reach above row = row :=
      List.ext_getElem List.length_mapIdx (by simp [filterRow, prediction, same])
    rw [List.map_cons, filterRows, ih, List.flatMap_cons, kept]
    rfl

/-- Image data gives back the rows that it was filtered from, each with any of the five filters.
Image data of whole rows is refused exactly if a row has another filter, for the first such. -/
theorem unfilter_filtered (stride reach : Nat) (positive : 0 < reach) :
    (∀ rows : List (Fin 5 × List UInt8), (∀ row ∈ rows, row.2.length = stride) →
      unfilter stride reach (filterRows reach [] rows) = .ok (rows.flatMap Prod.snd)) ∧
    ∀ (count : Nat) (data : List UInt8), data.length = count * (stride + 1) →
      ∀ error, unfilter stride reach data = .error error ↔
        ∃ byte, (filterBytes stride count data).find? (4 < ·) = some byte ∧
          error = .badFilter byte :=
  ⟨fun _ lengths => unfilter_filterRows positive lengths, fun _ _ length _ =>
    unfilter_eq_error length⟩

/-- Two rows behind each other, and three of which the second has no filter. -/
theorem unfilter_filtered_pair :
    unfilter 3 1 (filterRows 1 [] [(4, [200, 7, 9]), (3, [1, 255, 0])]) =
        .ok [200, 7, 9, 1, 255, 0] ∧
      unfilter 1 1 [2, 30, 9, 30, 7, 30] = .error (.badFilter 9) := by
  constructor
  · exact (unfilter_filtered 3 1 (by decide)).1 [(4, [200, 7, 9]), (3, [1, 255, 0])] (by decide)
  · exact ((unfilter_filtered 1 1 (by decide)).2 3 [2, 30, 9, 30, 7, 30] rfl _).2
      ⟨9, by decide, rfl⟩

end Png

end Blockwright
