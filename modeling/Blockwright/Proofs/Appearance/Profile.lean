import Mathlib
import Blockwright.Appearance.Profile

/-!
# Sizes of profiles

A profile has one or two traits and styles and up to two motifs, whether it is derived or stated.
-/

namespace Blockwright

namespace Motif

theorem insertSorted_eq (motif : Motif) (motifs : List Motif) :
    insertSorted motif motifs = motifs.orderedInsert (·.rank ≤ ·.rank) motif := by
  induction motifs with
  | nil => rfl
  | cons first rest ih => rw [insertSorted, List.orderedInsert, ih]

theorem sort_eq (motifs : List Motif) :
    sort motifs = motifs.insertionSort (·.rank ≤ ·.rank) := by
  induction motifs with
  | nil => rfl
  | cons first rest ih =>
    rw [List.insertionSort_cons, ← ih, ← insertSorted_eq]
    rfl

theorem sort_perm (motifs : List Motif) : (sort motifs).Perm motifs := by
  rw [sort_eq]
  exact List.perm_insertionSort _ motifs

theorem rank_injective : Function.Injective rank := by
  intro first second
  cases first <;> cases second <;> decide

theorem sorted_sort (motifs : List Motif) :
    (sort motifs).Pairwise fun first second => first.rank ≤ second.rank := by
  rw [sort_eq]
  exact List.pairwise_insertionSort (Order.Preimage rank (· ≤ ·)) motifs

/-- Different motifs are sorted into stamping order. -/
theorem pairwise_sort {motifs : List Motif} (different : motifs.Nodup) :
    (sort motifs).Pairwise fun first second => first.rank < second.rank := by
  have apart : (sort motifs).Nodup := (sort_perm motifs).nodup_iff.2 different
  refine ((sorted_sort motifs).and apart).imp fun ⟨notAfter, other⟩ => ?_
  exact lt_of_le_of_ne notAfter (rank_injective.ne other)

end Motif

namespace Profile

variable {α : Type} [BEq α]

theorem nodup_eraseDups [LawfulBEq α] (entries : List α) : entries.eraseDups.Nodup := by
  induction size : entries.length using Nat.strong_induction_on generalizing entries with
  | _ size ih =>
    cases entries with
    | nil => simp
    | cons first rest =>
      rw [List.eraseDups_cons, List.nodup_cons]
      refine ⟨by simp, ih _ ?_ _ rfl⟩
      rw [← size]
      exact Nat.lt_succ_of_le (List.length_filter_le _ rest)

theorem bounded_nodup [LawfulBEq α] (entries : List α) : (bounded entries).Nodup :=
  (nodup_eraseDups entries).sublist (List.take_sublist _ _)

theorem length_bounded_le (entries : List α) : (bounded entries).length ≤ limit :=
  List.length_take_le _ _

theorem bounded_ne_nil {entries : List α} (some : entries ≠ []) : bounded entries ≠ [] := by
  cases entries with
  | nil => exact absurd rfl some
  | cons first rest => simp [bounded, limit, List.eraseDups_cons]

/-- Whether a list has one or two entries, which are different. -/
structure OneOrTwo (entries : List α) : Prop where
  atLeast : 1 ≤ entries.length
  atMost : entries.length ≤ 2
  different : entries.Nodup

/-- Whether the lists of a profile have their sizes and its motifs are in stamping order. -/
structure Bounded (profile : Profile) : Prop where
  traits : OneOrTwo profile.traits
  styles : OneOrTwo profile.styles
  motifCount : profile.motifs.length ≤ 2
  motifs : profile.motifs.Pairwise fun first second => first.rank < second.rank

theorem oneOrTwo_bounded [LawfulBEq α] {entries : List α}
    (some : entries ≠ []) : OneOrTwo (bounded entries) where
  atLeast := List.length_pos_iff.2 (bounded_ne_nil some)
  atMost := length_bounded_le entries
  different := bounded_nodup entries

theorem length_sort_bounded_le (motifs : List Motif) :
    (Motif.sort (bounded motifs)).length ≤ limit := by
  rw [(Motif.sort_perm _).length_eq]
  exact length_bounded_le motifs

theorem derive_bounded (displayName id : String) (hint : Option String) (material : Material) :
    (derive displayName id hint material).Bounded where
  traits := oneOrTwo_bounded (by simp)
  styles := oneOrTwo_bounded (by simp)
  motifCount := length_sort_bounded_le _
  motifs := Motif.pairwise_sort (bounded_nodup _)

/-- Whether a profile has what an override states, and otherwise what it had before. Stated traits
and styles count if there are any; of all that is stated the first two different ones are kept. -/
structure Overrides (stated : ProfileOverride) (before after : Profile) : Prop where
  hint : after.hint = stated.hint.getD before.hint
  material : after.material = before.material
  traits : ∀ traits, stated.traits = some traits → traits ≠ [] →
    after.traits = traits.eraseDups.take 2
  sameTraits : stated.traits = none ∨ stated.traits = some [] → after.traits = before.traits
  styles : ∀ styles, stated.styles = some styles → styles ≠ [] →
    after.styles = styles.eraseDups.take 2
  sameStyles : stated.styles = none ∨ stated.styles = some [] → after.styles = before.styles
  motifs : ∀ motifs, stated.motifs = some motifs → after.motifs.Perm (motifs.eraseDups.take 2)
  sameMotifs : stated.motifs = none → after.motifs = before.motifs

variable {profile : Profile}

theorem overrides_override (profile : Profile) (stated : ProfileOverride) :
    Overrides stated profile (profile.override stated) where
  hint := rfl
  material := rfl
  traits := by
    rintro (_ | ⟨first, rest⟩) isStated some
    · exact absurd rfl some
    · rw [override, isStated]
      rfl
  sameTraits := by
    rintro (isStated | isStated) <;> rw [override, isStated]
  styles := by
    rintro (_ | ⟨first, rest⟩) isStated some
    · exact absurd rfl some
    · rw [override, isStated]
      rfl
  sameStyles := by
    rintro (isStated | isStated) <;> rw [override, isStated]
  motifs := by
    intro motifs isStated
    rw [override, isStated]
    exact Motif.sort_perm _
  sameMotifs := by
    intro isStated
    rw [override, isStated]

theorem Bounded.override (bounded : profile.Bounded) (stated : ProfileOverride) :
    (profile.override stated).Bounded where
  traits := by
    simp only [Profile.override]
    split
    · exact oneOrTwo_bounded (by simp)
    · exact bounded.traits
  styles := by
    simp only [Profile.override]
    split
    · exact oneOrTwo_bounded (by simp)
    · exact bounded.styles
  motifCount := by
    simp only [Profile.override]
    split
    · exact length_sort_bounded_le _
    · exact bounded.motifCount
  motifs := by
    simp only [Profile.override]
    split
    · exact Motif.pairwise_sort (bounded_nodup _)
    · exact bounded.motifs

end Profile

end Blockwright
