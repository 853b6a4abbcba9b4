import Mathlib
import Blockwright.Assets.Mapping
import Blockwright.Data.Tag
import Blockwright.Proofs.Outcome

/-!
# Ascending lists

Texts, asset keys and tags are kept in ascending lists without repetition. Such a list is
determined by its members, so that it does not depend on the order in which they come in. Files
are sorted by their paths; their order is determined if no two of them share one.
-/

namespace Blockwright

namespace Ascending

variable {α : Type} {precedes : α → α → Prop}

theorem nodup [IsStrictOrder α precedes] {values : List α}
    (ascends : values.Pairwise precedes) : values.Nodup := by
  refine ascends.imp ?_
  rintro value _ related rfl
  exact irrefl_of precedes value related

/-- Two strictly ascending lists with the same members are equal. -/
theorem eq_of_mem_iff [IsStrictOrder α precedes] {first second : List α}
    (firstAscends : first.Pairwise precedes) (secondAscends : second.Pairwise precedes)
    (same : ∀ value, value ∈ first ↔ value ∈ second) : first = second := by
  have reordered : first.Perm second :=
    (List.perm_ext_iff_of_nodup (nodup firstAscends) (nodup secondAscends)).2 same
  exact reordered.eq_of_pairwise
    (fun _ _ _ _ forward backward => absurd forward (asymm_of precedes backward))
    firstAscends secondAscends

/-- Values that are sorted by a text stand in ascending order of it. -/
theorem pairwise_mergeSort (key : α → String) (values : List α) :
    (values.mergeSort fun first second => !decide (key second < key first)).Pairwise
      fun first second => key first ≤ key second := by
  have le_iff : ∀ first second : α,
      (!decide (key second < key first)) = true ↔ key first ≤ key second := by
    intro first second
    rw [Bool.not_eq_true', decide_eq_false_iff_not, String.not_lt]
  refine (List.pairwise_mergeSort ?_ ?_ values).imp fun related => (le_iff _ _).1 related
  · intro first second third before after
    exact (le_iff _ _).2 (String.le_trans ((le_iff _ _).1 before) ((le_iff _ _).1 after))
  · intro first second
    rw [Bool.or_eq_true, le_iff, le_iff]
    exact String.le_total _ _

/-- Sorting values by different texts does not depend on the order in which they come in. -/
theorem mergeSort_eq_of_perm {key : α → String} {first second : List α}
    (reordered : first.Perm second) (different : (first.map key).Nodup) :
    first.mergeSort (fun value other => !decide (key other < key value)) =
      second.mergeSort fun value other => !decide (key other < key value) := by
  refine List.Perm.eq_of_pairwise ?_ (pairwise_mergeSort key first) (pairwise_mergeSort key second)
    ((List.mergeSort_perm ..).trans (reordered.trans (List.mergeSort_perm ..).symm))
  intro value other isFirst isSecond before after
  have sameKey : key value = key other := String.le_antisymm before after
  have otherFirst : other ∈ first := reordered.mem_iff.2 (List.mem_mergeSort.1 isSecond)
  exact List.inj_on_of_nodup_map different (List.mem_mergeSort.1 isFirst) otherFirst sameKey

variable [DecidableRel precedes] [DecidableEq α]

/-- Inserts a value into ascending values unless it is there. -/
def insert (precedes : α → α → Prop) [DecidableRel precedes] (value : α) : List α → List α
  | [] => [value]
  | other :: rest =>
    if value = other then other :: rest
    else if precedes value other then value :: other :: rest
    else other :: insert precedes value rest

theorem mem_insert {value found : α} {values : List α} :
    found ∈ insert precedes value values ↔ found = value ∨ found ∈ values := by
  induction values with
  | nil => simp [insert]
  | cons other rest ih =>
    rw [insert]
    split
    · next same => simp [same]
    · split
      · simp
      · simp only [List.mem_cons, ih]
        exact or_left_comm

theorem pairwise_insert [IsStrictTotalOrder α precedes] {value : α} {values : List α}
    (ascends : values.Pairwise precedes) : (insert precedes value values).Pairwise precedes := by
  induction values with
  | nil => simp [insert]
  | cons other rest ih =>
    obtain ⟨otherFirst, restAscends⟩ := List.pairwise_cons.1 ascends
    rw [insert]
    split
    · exact ascends
    · next different =>
      split
      · next before =>
        refine List.pairwise_cons.2 ⟨?_, ascends⟩
        intro later isLater
        rcases List.mem_cons.1 isLater with rfl | isLater
        · exact before
        · exact trans_of precedes before (otherFirst later isLater)
      · next notBefore =>
        have after : precedes other value :=
          (trichotomous_of precedes value other).resolve_left notBefore |>.resolve_left different
        refine List.pairwise_cons.2 ⟨?_, ih restAscends⟩
        intro later isLater
        rcases mem_insert.1 isLater with rfl | isLater
        · exact after
        · exact otherFirst later isLater

theorem mem_foldr_insert {found : α} {values : List α} :
    found ∈ values.foldr (insert precedes) [] ↔ found ∈ values := by
  induction values with
  | nil => simp
  | cons value rest ih => rw [List.foldr_cons, mem_insert, ih, List.mem_cons]

theorem pairwise_foldr_insert [IsStrictTotalOrder α precedes] (values : List α) :
    (values.foldr (insert precedes) []).Pairwise precedes := by
  induction values with
  | nil => exact List.Pairwise.nil
  | cons value rest ih => exact pairwise_insert ih

theorem foldr_insert_congr [IsStrictTotalOrder α precedes] {first second : List α}
    (same : ∀ value, value ∈ first ↔ value ∈ second) :
    first.foldr (insert precedes) [] = second.foldr (insert precedes) [] := by
  refine eq_of_mem_iff (pairwise_foldr_insert first) (pairwise_foldr_insert second) ?_
  intro value
  rw [mem_foldr_insert, mem_foldr_insert, same]

end Ascending

/-! ## Texts -/

instance Text.isStrictTotalOrder : IsStrictTotalOrder String (· < ·) where
  irrefl := String.lt_irrefl
  trans _ _ _ := String.lt_trans
  trichotomous _ _ notBefore notAfter :=
    String.le_antisymm (String.not_lt.1 notAfter) (String.not_lt.1 notBefore)

namespace Text

theorem insertAscending_eq (value : String) (values : List String) :
    insertAscending value values = Ascending.insert (· < ·) value values := by
  induction values with
  | nil => rfl
  | cons other rest ih =>
    rw [insertAscending, Ascending.insert, ih]
    split
    · next before =>
      rw [if_neg (String.ne_of_lt before)]
    · rfl

theorem ascending_eq (values : List String) :
    ascending values = values.foldr (Ascending.insert (· < ·)) [] := by
  rw [ascending]
  congr 1
  funext value values
  exact insertAscending_eq value values

theorem pairwise_ascending (values : List String) : (ascending values).Pairwise (· < ·) := by
  rw [ascending_eq]
  exact Ascending.pairwise_foldr_insert values

theorem ascending_congr {first second : List String}
    (same : ∀ value, value ∈ first ↔ value ∈ second) : ascending first = ascending second := by
  rw [ascending_eq, ascending_eq]
  exact Ascending.foldr_insert_congr same

end Text

/-! ## Asset keys -/

namespace AssetKey

instance : IsStrictTotalOrder AssetKey (fun first second => first.precedes second) where
  irrefl key := by simp [precedes]
  trans first second third := by
    obtain ⟨firstKind, firstId⟩ := first
    obtain ⟨secondKind, secondId⟩ := second
    obtain ⟨thirdKind, thirdId⟩ := third
    intro before after
    simp only [precedes] at before after ⊢
    cases firstKind <;> cases secondKind <;> cases thirdKind <;> grind
  trichotomous first second := by
    obtain ⟨firstKind, firstId⟩ := first
    obtain ⟨secondKind, secondId⟩ := second
    intro notBefore notAfter
    simp only [precedes] at notBefore notAfter
    cases firstKind <;> cases secondKind <;> grind

theorem ascending_eq (keys : List AssetKey) :
    ascending keys =
      keys.foldr (Ascending.insert fun first second => first.precedes second) [] := by
  rw [ascending]
  congr 1
  funext key keys
  induction keys with
  | nil => rfl
  | cons other rest ih => rw [insert, Ascending.insert, ih]

theorem mem_ascending {key : AssetKey} {keys : List AssetKey} :
    key ∈ ascending keys ↔ key ∈ keys := by
  rw [ascending_eq]
  exact Ascending.mem_foldr_insert

theorem ascending_perm_dedup (keys : List AssetKey) : (ascending keys).Perm keys.dedup := by
  have different : (ascending keys).Nodup := by
    rw [ascending_eq]
    exact Ascending.nodup (Ascending.pairwise_foldr_insert keys)
  refine (List.perm_ext_iff_of_nodup different (List.nodup_dedup keys)).2 fun key => ?_
  rw [mem_ascending, List.mem_dedup]

theorem ascending_congr {first second : List AssetKey}
    (same : ∀ key, key ∈ first ↔ key ∈ second) : ascending first = ascending second := by
  rw [ascending_eq, ascending_eq]
  exact Ascending.foldr_insert_congr same

end AssetKey

/-! ## Tags -/

namespace Tag

instance : IsStrictTotalOrder Tag (fun first second => first.precedes second) where
  irrefl tag := by simp [precedes]
  trans first second third := by
    obtain ⟨firstSpace, firstKind, firstName⟩ := first
    obtain ⟨secondSpace, secondKind, secondName⟩ := second
    obtain ⟨thirdSpace, thirdKind, thirdName⟩ := third
    intro before after
    simp only [precedes] at before after ⊢
    cases firstKind <;> cases secondKind <;> cases thirdKind <;> grind
  trichotomous first second := by
    obtain ⟨firstSpace, firstKind, firstName⟩ := first
    obtain ⟨secondSpace, secondKind, secondName⟩ := second
    intro notBefore notAfter
    simp only [precedes] at notBefore notAfter
    cases firstKind <;> cases secondKind <;> grind

theorem tags_eq (entries : List Entry) :
    tags entries =
      (entries.map Prod.fst).foldr (Ascending.insert fun first second => first.precedes second)
        [] := by
  rw [tags, List.foldr_map]
  congr 1
  funext entry found
  induction found with
  | nil => rfl
  | cons other rest ih => rw [insertTag, Ascending.insert, ih]

theorem mem_tags {tag : Tag} {entries : List Entry} :
    tag ∈ tags entries ↔ ∃ value, (tag, value) ∈ entries := by
  rw [tags_eq, Ascending.mem_foldr_insert]
  simp

theorem tags_congr {first second : List Entry} (same : ∀ entry, entry ∈ first ↔ entry ∈ second) :
    tags first = tags second := by
  rw [tags_eq, tags_eq]
  refine Ascending.foldr_insert_congr fun tag => ?_
  simp [same]

theorem values_congr {first second : List Entry} (same : ∀ entry, entry ∈ first ↔ entry ∈ second)
    (tag : Tag) : values first tag = values second tag := by
  refine Text.ascending_congr fun value => ?_
  simp [same]

end Tag

/-! ## Files -/

namespace TreeFile

theorem pairwise_sort (files : List TreeFile) :
    (sort files).Pairwise fun first second => first.path ≤ second.path :=
  Ascending.pairwise_mergeSort path files

theorem sort_perm (files : List TreeFile) : (sort files).Perm files :=
  List.mergeSort_perm files pathLe

@[simp]
theorem mem_sort {file : TreeFile} {files : List TreeFile} : file ∈ sort files ↔ file ∈ files :=
  (sort_perm files).mem_iff

/-- Sorting files whose paths are different does not depend on the order in which they come in. -/
theorem sort_eq_of_perm {first second : List TreeFile} (reordered : first.Perm second)
    (different : (first.map path).Nodup) : sort first = sort second :=
  Ascending.mergeSort_eq_of_perm reordered different

/-- Sorting relates files that come in related and with the same paths. -/
theorem forall₂_sort {relation : TreeFile → TreeFile → Prop} {first second : List TreeFile}
    (each : List.Forall₂ relation first second)
    (samePath : ∀ file other, relation file other → file.path = other.path) :
    List.Forall₂ relation (sort first) (sort second) := by
  obtain ⟨pairs, related, rfl, rfl⟩ := Outcome.exists_pairs_of_forall₂ each
  -- Pairs can be sorted by either side.
  let sorted := pairs.mergeSort fun pair next => pair.1.pathLe next.1
  have firstSorted : sorted.map Prod.fst = sort (pairs.map Prod.fst) :=
    List.map_mergeSort fun _ _ _ _ => rfl
  have secondSorted : sorted.map Prod.snd = sort (pairs.map Prod.snd) := by
    refine List.map_mergeSort fun pair isPair next isNext => ?_
    rw [pathLe, pathLe, samePath _ _ (related pair isPair), samePath _ _ (related next isNext)]
  rw [← firstSorted, ← secondSorted, List.forall₂_map_left_iff, List.forall₂_map_right_iff]
  exact List.forall₂_same.2 fun pair isPair => related pair (List.mem_mergeSort.1 isPair)

end TreeFile

end Blockwright
