/-!
# Bisection

A value is looked for by its key among values with ascending keys, by halving the range in which it
can stand.
-/

namespace Blockwright

namespace Bisection

variable {α : Type}

/-- The value with a key between two places of values with ascending keys. -/
def findIn? (key : α → String) (values : Array α) (wanted : String) (low high : Nat)
    (inside : high ≤ values.size) : Option α :=
  if _nonempty : low < high then
    let middle := low + (high - low) / 2
    have : middle < values.size := by omega
    if key values[middle] = wanted then some values[middle]
    else if key values[middle] < wanted then findIn? key values wanted (middle + 1) high inside
    else findIn? key values wanted low middle (by omega)
  else none
termination_by high - low

/-- The value with a key among values with ascending keys. -/
def find? (key : α → String) (values : List α) (wanted : String) : Option α :=
  findIn? key values.toArray wanted 0 values.length (by simp)

theorem findIn?_sound {key : α → String} {values : Array α} {wanted : String} {low high : Nat}
    {inside : high ≤ values.size} {value : α}
    (found : findIn? key values wanted low high inside = some value) :
    value ∈ values ∧ key value = wanted := by
  fun_induction findIn? key values wanted low high inside with
  | case1 low high inside nonempty middle bound same =>
    cases found
    exact ⟨Array.getElem_mem bound, same⟩
  | case2 _ _ _ _ _ _ _ _ ih => exact ih found
  | case3 _ _ _ _ _ _ _ _ ih => exact ih found
  | case4 => cases found

/-- Whether the keys of values ascend. -/
def Ascends (key : α → String) (values : Array α) : Prop :=
  ∀ {i j : Nat} (_ : i < j) (_ : j < values.size), key values[i] < key values[j]

/-- A value with a smaller key stands in front. -/
theorem Ascends.place_lt {key : α → String} {values : Array α} (ascends : Ascends key values)
    {i j : Nat} {first : i < values.size} {second : j < values.size}
    (less : key values[i] < key values[j]) : i < j := by
  rcases Nat.lt_trichotomy i j with before | rfl | behind
  · exact before
  · exact absurd less (String.lt_irrefl _)
  · exact absurd (String.lt_trans less (ascends behind first)) (String.lt_irrefl _)

theorem Ascends.place_eq {key : α → String} {values : Array α} (ascends : Ascends key values)
    {i j : Nat} {first : i < values.size} {second : j < values.size}
    (same : key values[i] = key values[j]) : i = j := by
  rcases Nat.lt_trichotomy i j with before | here | behind
  · exact absurd (same ▸ ascends before second) (String.lt_irrefl _)
  · exact here
  · exact absurd (same ▸ ascends behind first) (String.lt_irrefl _)

/-- A value between the places is found: it stands behind the middle if the key of the middle is
smaller, and in front of it otherwise. -/
theorem findIn?_complete {key : α → String} {values : Array α} (ascends : Ascends key values)
    {place : Nat} (isPlace : place < values.size) {low high : Nat} {inside : high ≤ values.size}
    (behind : low ≤ place) (before : place < high) :
    findIn? key values (key values[place]) low high inside = some values[place] := by
  fun_induction findIn? key values (key values[place]) low high inside with
  | case1 low high inside nonempty middle bound same =>
    simp only [ascends.place_eq same]
  | case2 low high inside nonempty middle bound different less ih =>
    exact ih (ascends.place_lt less) before
  | case3 low high inside nonempty middle bound different notLess ih =>
    refine ih behind (Nat.lt_of_not_le fun later => ?_)
    rcases Nat.lt_or_eq_of_le later with later | here
    · exact notLess (ascends later isPlace)
    · exact different (by simp only [here])
  | case4 => omega

/-- Exactly the values with the key are found if the keys ascend. -/
theorem find?_eq_some {key : α → String} {values : List α} {wanted : String}
    (ascends : (values.map key).Pairwise (· < ·)) {value : α} :
    find? key values wanted = some value ↔ value ∈ values ∧ key value = wanted := by
  constructor
  · intro found
    obtain ⟨isValue, hasKey⟩ := findIn?_sound found
    exact ⟨by simpa using isValue, hasKey⟩
  · rintro ⟨isValue, hasKey⟩
    obtain ⟨place, bound, rfl⟩ := List.getElem_of_mem isValue
    have ordered : Ascends key values.toArray := by
      intro i j before inside
      have order := List.pairwise_iff_getElem.1 ascends i j (by simp at inside ⊢; omega)
        (by simpa using inside) before
      simpa using order
    rw [← hasKey]
    exact findIn?_complete ordered (by simpa using bound) (Nat.zero_le _) bound

end Bisection

end Blockwright
