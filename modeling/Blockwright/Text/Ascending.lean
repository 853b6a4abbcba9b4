/-!
# Ascending texts

Sets of texts as lists in strictly ascending order.
-/

namespace Blockwright

namespace Text

/-- Inserts a text into ascending texts unless it is there. -/
def insertAscending (value : String) : List String → List String
  | [] => [value]
  | other :: rest =>
    if value < other then value :: other :: rest
    else if value = other then other :: rest
    else other :: insertAscending value rest

/-- The different texts of a list, ascending. -/
def ascending (values : List String) : List String := values.foldr insertAscending []

theorem mem_insertAscending {value found : String} {values : List String} :
    found ∈ insertAscending value values ↔ found = value ∨ found ∈ values := by
  induction values with
  | nil => simp [insertAscending]
  | cons other rest ih =>
    simp only [insertAscending]
    split
    · simp
    · split
      · rename_i same
        subst same
        simp
      · simp only [List.mem_cons, ih]
        exact or_left_comm

/-- A list and the ascending list of its texts have the same members. -/
theorem mem_ascending {found : String} {values : List String} :
    found ∈ ascending values ↔ found ∈ values := by
  induction values with
  | nil => simp [ascending]
  | cons value rest ih =>
    rw [ascending, List.foldr_cons, mem_insertAscending, List.mem_cons]
    exact or_congr_right ih

end Text

end Blockwright
