import Mathlib
import Blockwright.Text.Words

/-!
# Replaced texts

Occurrences of a pattern are replaced from left to right. What does not begin an occurrence stays;
where there is one, what it is replaced by stands.
-/

namespace Blockwright

namespace Text

variable {pattern replacement text : List Char} {c : Char}

theorem replaceFrom_eq_drop (pattern replacement : List Char) (dropped : Nat) (text : List Char) :
    replaceFrom pattern replacement dropped text =
      replaceFrom pattern replacement 0 (text.drop dropped) := by
  induction text generalizing dropped with
  | nil => simp [replaceFrom]
  | cons c rest ih =>
    cases dropped with
    | zero => rfl
    | succ dropped => exact ih dropped

/-- An occurrence at the front is replaced. -/
theorem replaceFrom_append (notEmpty : pattern ≠ []) (replacement rest : List Char) :
    replaceFrom pattern replacement 0 (pattern ++ rest) =
      replacement ++ replaceFrom pattern replacement 0 rest := by
  obtain ⟨first, others, rfl⟩ := List.exists_cons_of_ne_nil notEmpty
  have starts : (first :: others).isPrefixOf (first :: (others ++ rest)) = true :=
    List.isPrefixOf_iff_prefix.2 ⟨rest, rfl⟩
  rw [List.cons_append, replaceFrom, if_pos starts, replaceFrom_eq_drop]
  simp

theorem replaceFrom_cons (other : ¬pattern <+: c :: text) :
    replaceFrom pattern replacement 0 (c :: text) =
      c :: replaceFrom pattern replacement 0 text := by
  rw [replaceFrom, if_neg fun starts => other (List.isPrefixOf_iff_prefix.1 starts)]

/-- Characters with which the pattern does not begin stay. -/
theorem replaceFrom_append_of_not_mem {front : List Char} (absent : c ∉ front)
    (others replacement rest : List Char) :
    replaceFrom (c :: others) replacement 0 (front ++ rest) =
      front ++ replaceFrom (c :: others) replacement 0 rest := by
  induction front with
  | nil => rfl
  | cons first front ih =>
    rw [List.mem_cons, not_or] at absent
    have notHere : ¬c :: others <+: first :: (front ++ rest) := fun starts =>
      absent.1 (List.cons_prefix_cons.1 starts).1
    rw [List.cons_append, replaceFrom_cons notHere, ih absent.2, List.cons_append]

theorem replaceFrom_of_not_infix (absent : ¬pattern <:+: text) :
    replaceFrom pattern replacement 0 text = text := by
  induction text with
  | nil => rfl
  | cons c rest ih =>
    rw [List.infix_cons_iff, not_or] at absent
    rw [replaceFrom_cons absent.1, ih absent.2]

/-- Where a pattern occurs, what it is replaced by occurs. -/
theorem mem_replaceFrom (notEmpty : pattern ≠ []) (occurs : pattern <:+: text)
    (isCharacter : c ∈ replacement) : c ∈ replaceFrom pattern replacement 0 text := by
  induction text with
  | nil => exact absurd (List.infix_nil.1 occurs) notEmpty
  | cons first rest ih =>
    by_cases starts : pattern <+: first :: rest
    · obtain ⟨behind, form⟩ := starts
      rw [← form, replaceFrom_append notEmpty]
      exact List.mem_append_left _ isCharacter
    · rw [replaceFrom_cons starts]
      exact List.mem_cons_of_mem _ (ih ((List.infix_cons_iff.1 occurs).resolve_left starts))

end Text

end Blockwright
