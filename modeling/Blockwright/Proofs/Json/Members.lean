import Mathlib
import Blockwright.Json.Value

/-!
# Members of objects

The members of an object ascend by their keys. They are determined by the members that come in if
these have different keys, and ascending members stay as they are.
-/

namespace Blockwright

namespace Json

/-- Whether members ascend by their keys. -/
def Ascending (members : List (String × Json)) : Prop :=
  members.Pairwise fun first second => first.1 < second.1

theorem key_mem_addMember {key added : String} {value : Json} {members : List (String × Json)} :
    key ∈ (addMember added value members).map Prod.fst ↔
      key = added ∨ key ∈ members.map Prod.fst := by
  induction members with
  | nil => simp [addMember]
  | cons member rest ih =>
    obtain ⟨other, old⟩ := member
    rw [addMember]
    split
    · simp
    · split
      · next same => simp [same]
      · simp only [List.map_cons, List.mem_cons, ih]
        exact or_left_comm

/-- Adding a member keeps members ascending. -/
theorem Ascending.addMember {key : String} {value : Json} {members : List (String × Json)}
    (ascends : Ascending members) : Ascending (addMember key value members) := by
  induction members with
  | nil => simp [Json.addMember, Ascending]
  | cons member rest ih =>
    obtain ⟨other, old⟩ := member
    obtain ⟨otherFirst, restAscends⟩ := List.pairwise_cons.1 ascends
    rw [Json.addMember]
    split
    · next before =>
      refine List.pairwise_cons.2 ⟨?_, ascends⟩
      intro later isLater
      rcases List.mem_cons.1 isLater with rfl | isLater
      · exact before
      · exact String.lt_trans before (otherFirst later isLater)
    · next notBefore =>
      split
      · exact ascends
      · next different =>
        have after : other < key := String.not_le.1 fun before =>
          different (String.le_antisymm before (String.not_lt.1 notBefore))
        refine List.pairwise_cons.2 ⟨?_, ih restAscends⟩
        intro later isLater
        have laterKey : later.1 ∈ (Json.addMember key value rest).map Prod.fst :=
          List.mem_map_of_mem isLater
        rcases key_mem_addMember.1 laterKey with same | laterKey
        · exact same ▸ after
        · obtain ⟨found, isFound, same⟩ := List.mem_map.1 laterKey
          exact same ▸ otherFirst found isFound

/-- The members of an object ascend. -/
theorem ascending_sortMembers (members : List (String × Json)) :
    Ascending (sortMembers members) := by
  induction members with
  | nil => exact List.Pairwise.nil
  | cons member rest ih => exact Ascending.addMember ih

theorem key_mem_sortMembers {key : String} {members : List (String × Json)} :
    key ∈ (sortMembers members).map Prod.fst ↔ key ∈ members.map Prod.fst := by
  induction members with
  | nil => rfl
  | cons member rest ih =>
    rw [sortMembers, List.foldr_cons, key_mem_addMember, List.map_cons, List.mem_cons]
    exact or_congr_right ih

theorem mem_of_mem_addMember {member : String × Json} {added : String} {value : Json}
    {members : List (String × Json)} (isMember : member ∈ addMember added value members) :
    member = (added, value) ∨ member ∈ members := by
  induction members with
  | nil => simpa [addMember] using isMember
  | cons first rest ih =>
    obtain ⟨other, old⟩ := first
    rw [addMember] at isMember
    split at isMember
    · exact List.mem_cons.1 isMember
    · split at isMember
      · exact .inr isMember
      · rcases List.mem_cons.1 isMember with rfl | later
        · exact .inr (by simp)
        · exact (ih later).imp_right (List.mem_cons_of_mem _)

/-- The members of an object come from those that it is made of. -/
theorem mem_of_mem_sortMembers {member : String × Json} {members : List (String × Json)}
    (isMember : member ∈ sortMembers members) : member ∈ members := by
  induction members with
  | nil => exact isMember
  | cons first rest ih =>
    rcases mem_of_mem_addMember isMember with rfl | later
    · simp
    · exact List.mem_cons_of_mem _ (ih later)

/-- Values can be changed before or after members are put in order. -/
theorem sortMembers_map (change : Json → Json) (members : List (String × Json)) :
    sortMembers (members.map fun member => (member.1, change member.2)) =
      (sortMembers members).map fun member => (member.1, change member.2) := by
  have addMember_map : ∀ (key : String) (value : Json) (members : List (String × Json)),
      addMember key (change value) (members.map fun member => (member.1, change member.2)) =
        (addMember key value members).map fun member => (member.1, change member.2) := by
    intro key value members
    induction members with
    | nil => rfl
    | cons member rest ih =>
      rw [List.map_cons, addMember, addMember, ih]
      split
      · rfl
      · split <;> rfl
  induction members with
  | nil => rfl
  | cons member rest ih =>
    rw [List.map_cons, sortMembers, List.foldr_cons, ← sortMembers, ih, addMember_map]
    rfl

theorem mem_addMember {member : String × Json} {added : String} {value : Json}
    {members : List (String × Json)} (new : added ∉ members.map Prod.fst) :
    member ∈ addMember added value members ↔ member = (added, value) ∨ member ∈ members := by
  induction members with
  | nil => simp [addMember]
  | cons first rest ih =>
    obtain ⟨other, old⟩ := first
    have different : added ≠ other := fun same => new (by simp [same])
    have newInRest : added ∉ rest.map Prod.fst := fun isKey => new (by simp [isKey])
    rw [addMember]
    rw [if_neg different]
    split
    · simp
    · simp only [List.mem_cons, ih newInRest]
      exact or_left_comm

/-- Members with different keys are all members of their object. -/
theorem mem_sortMembers {member : String × Json} {members : List (String × Json)}
    (different : (members.map Prod.fst).Nodup) :
    member ∈ sortMembers members ↔ member ∈ members := by
  induction members with
  | nil => rfl
  | cons first rest ih =>
    obtain ⟨firstNew, restDifferent⟩ := List.nodup_cons.1 different
    have new : first.1 ∉ (sortMembers rest).map Prod.fst := fun isKey =>
      firstNew (key_mem_sortMembers.1 isKey)
    rw [sortMembers, List.foldr_cons, ← sortMembers, mem_addMember new, ih restDifferent,
      List.mem_cons]

theorem Ascending.nodup {members : List (String × Json)} (ascends : Ascending members) :
    (members.map Prod.fst).Nodup := by
  rw [List.Nodup, List.pairwise_map]
  exact ascends.imp String.ne_of_lt

/-- Ascending members are determined by which members there are. -/
theorem Ascending.eq_of_mem_iff {first second : List (String × Json)}
    (firstAscends : Ascending first) (secondAscends : Ascending second)
    (same : ∀ member, member ∈ first ↔ member ∈ second) : first = second := by
  have reordered : first.Perm second :=
    (List.perm_ext_iff_of_nodup firstAscends.nodup.of_map secondAscends.nodup.of_map).2 same
  exact reordered.eq_of_pairwise
    (fun _ _ _ _ forward backward => absurd forward (String.lt_asymm backward))
    firstAscends secondAscends

/-- Ascending members are those of their object. -/
theorem sortMembers_eq_self {members : List (String × Json)} (ascends : Ascending members) :
    sortMembers members = members :=
  (ascending_sortMembers members).eq_of_mem_iff ascends fun _ => mem_sortMembers ascends.nodup

/-- The object of members with different keys does not depend on their order. -/
theorem sortMembers_eq_of_perm {first second : List (String × Json)}
    (reordered : first.Perm second) (different : (first.map Prod.fst).Nodup) :
    sortMembers first = sortMembers second := by
  have secondDifferent : (second.map Prod.fst).Nodup :=
    (reordered.map Prod.fst).nodup_iff.1 different
  refine (ascending_sortMembers first).eq_of_mem_iff (ascending_sortMembers second) fun member => ?_
  rw [mem_sortMembers different, mem_sortMembers secondDifferent, reordered.mem_iff]

theorem ofMembers_eq_of_perm {first second : List (String × Json)}
    (reordered : first.Perm second) (different : (first.map Prod.fst).Nodup) :
    ofMembers first = ofMembers second := by
  rw [ofMembers, ofMembers, sortMembers_eq_of_perm reordered different]

theorem lookup_eq_some {key : String} {value : Json} {members : List (String × Json)}
    (different : (members.map Prod.fst).Nodup) :
    lookup key members = some value ↔ (key, value) ∈ members := by
  induction members with
  | nil => simp [lookup]
  | cons member rest ih =>
    obtain ⟨other, old⟩ := member
    obtain ⟨otherNew, restDifferent⟩ := List.nodup_cons.1 different
    by_cases found : other = key
    · subst found
      have notLater : (other, value) ∉ rest := fun later =>
        otherNew (List.mem_map.2 ⟨_, later, rfl⟩)
      simp [lookup, notLater, eq_comm]
    · simp [lookup, found, ih restDifferent, Ne.symm found]

/-- A member of different ones is found in their object. -/
theorem get?_ofMembers {key : String} {value : Json} {members : List (String × Json)}
    (different : (members.map Prod.fst).Nodup) :
    (ofMembers members).get? key = some value ↔ (key, value) ∈ members := by
  rw [ofMembers, get?, lookup_eq_some (ascending_sortMembers members).nodup,
    mem_sortMembers different]

theorem lookup_eq_none {key : String} {members : List (String × Json)} :
    lookup key members = none ↔ key ∉ members.map Prod.fst := by
  induction members with
  | nil => simp [lookup]
  | cons member rest ih =>
    obtain ⟨other, value⟩ := member
    by_cases found : other = key
    · simp [lookup, found]
    · simp [lookup, found, ih, Ne.symm found]

/-- What is not among the members of an object is not found. -/
theorem get?_ofMembers_eq_none {key : String} {members : List (String × Json)} :
    (ofMembers members).get? key = none ↔ key ∉ members.map Prod.fst := by
  rw [ofMembers, get?, lookup_eq_none, key_mem_sortMembers]

end Json

end Blockwright
