import Blockwright.Proofs.Json.Parts
import Blockwright.Proofs.Text.ByteOrder

/-!
# Values up to the order of members

Two values are alike if they differ at most in the order of the members of objects, at any depth.
If no object has two members of one key, that is so exactly if both values are the same once their
members are put in order.
-/

namespace Blockwright

namespace Json

/-- Whether two values differ at most in the order of the members of objects. -/
inductive Alike : Json → Json → Prop where
  | refl (value : Json) : Alike value value
  | trans {first second third : Json} (before : Alike first second) (behind : Alike second third) :
      Alike first third
  | element {front rest : List Json} {first second : Json} (inner : Alike first second) :
      Alike (array (front ++ first :: rest)) (array (front ++ second :: rest))
  | member {front rest : List (String × Json)} {key : String} {first second : Json}
      (inner : Alike first second) :
      Alike (object (front ++ (key, first) :: rest)) (object (front ++ (key, second) :: rest))
  | reorder {members others : List (String × Json)} (reordered : members.Perm others) :
      Alike (object members) (object others)

/-- Whether the members of every object in a value pass a test. -/
def EveryObject (test : List (String × Json) → Prop) (value : Json) : Prop :=
  ∀ members, Part (object members) value → test members

/-- Whether the members of every object in a value have different keys. -/
def HasDistinctKeys (value : Json) : Prop :=
  value.EveryObject fun members => (members.map Prod.fst).Nodup

/-- Whether the members of every object in a value ascend by the bytes of their keys. -/
def IsOrdered (value : Json) : Prop :=
  value.EveryObject fun members =>
    members.Pairwise fun first second => Text.bytes first.1 < Text.bytes second.1

variable {value other : Json}

theorem Alike.symm (alike : Alike value other) : Alike other value := by
  induction alike with
  | refl value => exact .refl value
  | trans _ _ before behind => exact .trans behind before
  | element _ ih => exact .element ih
  | member _ ih => exact .member ih
  | reorder reordered => exact .reorder reordered.symm

/-! ## Parts -/

theorem ascending_iff_bytes {members : List (String × Json)} :
    Ascending members ↔
      members.Pairwise fun first second => Text.bytes first.1 < Text.bytes second.1 := by
  simp only [Ascending, Text.lt_iff_bytes]

theorem IsOrdered.hasDistinctKeys (ordered : value.IsOrdered) : value.HasDistinctKeys :=
  fun members inside => (ascending_iff_bytes.2 (ordered members inside)).nodup

theorem part_array {part : Json} {elements : List Json} :
    Part part (array elements) ↔
      part = array elements ∨ ∃ element ∈ elements, Part part element := by
  constructor
  · rintro (_ | ⟨isElement, inside⟩ | _)
    · exact .inl rfl
    · exact .inr ⟨_, isElement, inside⟩
  · rintro (rfl | ⟨element, isElement, inside⟩)
    · exact .whole
    · exact .element isElement inside

theorem part_object {part : Json} {members : List (String × Json)} :
    Part part (object members) ↔
      part = object members ∨ ∃ member ∈ members, Part part member.2 := by
  constructor
  · rintro (_ | _ | ⟨isMember, inside⟩)
    · exact .inl rfl
    · exact .inr ⟨_, isMember, inside⟩
  · rintro (rfl | ⟨member, isMember, inside⟩)
    · exact .whole
    · exact .member isMember inside

theorem everyObject_array {test : List (String × Json) → Prop} {elements : List Json} :
    (array elements).EveryObject test ↔ ∀ element ∈ elements, element.EveryObject test := by
  constructor
  · exact fun every element isElement members inside =>
      every members (.element isElement inside)
  · intro each members inside
    obtain ⟨element, isElement, inside⟩ := (part_array.1 inside).resolve_left nofun
    exact each element isElement members inside

theorem everyObject_object {test : List (String × Json) → Prop}
    {members : List (String × Json)} :
    (object members).EveryObject test ↔
      test members ∧ ∀ member ∈ members, member.2.EveryObject test := by
  constructor
  · exact fun every => ⟨every members .whole, fun member isMember others inside =>
      every others (.member isMember inside)⟩
  · rintro ⟨whole, each⟩ others inside
    rcases part_object.1 inside with same | ⟨member, isMember, inside⟩
    · cases same
      exact whole
    · exact each member isMember others inside

theorem everyObject_of_leaf {test : List (String × Json) → Prop}
    (noArray : ∀ elements, value ≠ array elements) (noObject : ∀ members, value ≠ object members) :
    value.EveryObject test := by
  intro members inside
  cases inside with
  | whole => exact absurd rfl (noObject _)
  | element => exact absurd rfl (noArray _)
  | member => exact absurd rfl (noObject _)

section Leaves

variable {test : List (String × Json) → Prop}

@[simp] theorem everyObject_null : null.EveryObject test := everyObject_of_leaf nofun nofun

@[simp] theorem everyObject_bool (value : Bool) : (bool value).EveryObject test :=
  everyObject_of_leaf nofun nofun

@[simp] theorem everyObject_number (value : Number) : (number value).EveryObject test :=
  everyObject_of_leaf nofun nofun

@[simp] theorem everyObject_text (value : String) : (text value).EveryObject test :=
  everyObject_of_leaf nofun nofun

end Leaves

theorem isOrdered_object {members : List (String × Json)} :
    (object members).IsOrdered ↔
      Ascending members ∧ ∀ member ∈ members, member.2.IsOrdered := by
  rw [ascending_iff_bytes]
  exact everyObject_object

/-- An object of ordered values is ordered, whatever the order of its members was. -/
theorem isOrdered_ofMembers {members : List (String × Json)}
    (each : ∀ member ∈ members, member.2.IsOrdered) : (ofMembers members).IsOrdered :=
  isOrdered_object.2 ⟨ascending_sortMembers members, fun member isMember =>
    each member (mem_of_mem_sortMembers isMember)⟩

/-! ## Putting members in order -/

theorem sortedElements_eq (elements : List Json) :
    sortedElements elements = elements.map sorted := by
  induction elements with
  | nil => rfl
  | cons element rest ih => rw [sortedElements, ih, List.map_cons]

mutual

theorem isOrdered_sorted : (value : Json) → value.sorted.IsOrdered
  | .null => everyObject_null
  | .bool value => everyObject_bool value
  | .number value => everyObject_number value
  | .text value => everyObject_text value
  | .array elements => everyObject_array.2 (isOrdered_sortedElements elements)
  | .object members => isOrdered_ofMembers (isOrdered_sortedValues members)

theorem isOrdered_sortedElements : (elements : List Json) →
    ∀ element ∈ sortedElements elements, element.IsOrdered
  | [] => nofun
  | element :: rest => List.forall_mem_cons.2
      ⟨isOrdered_sorted element, isOrdered_sortedElements rest⟩

theorem isOrdered_sortedValues : (members : List (String × Json)) →
    ∀ member ∈ sortedValues members, member.2.IsOrdered
  | [] => nofun
  | (_, value) :: rest => List.forall_mem_cons.2
      ⟨isOrdered_sorted value, isOrdered_sortedValues rest⟩

end

mutual

/-- An ordered value is in order already. -/
theorem IsOrdered.sorted_eq : {value : Json} → value.IsOrdered → value.sorted = value
  | .null, _ => rfl
  | .bool _, _ => rfl
  | .number _, _ => rfl
  | .text _, _ => rfl
  | .array elements, ordered => by
    rw [sorted, sortedElements_eq_self elements (everyObject_array.1 ordered)]
  | .object members, ordered => by
    obtain ⟨ascends, each⟩ := isOrdered_object.1 ordered
    rw [sorted, sortedValues_eq_self members each, sortMembers_eq_self ascends]

theorem sortedElements_eq_self : (elements : List Json) →
    (∀ element ∈ elements, element.IsOrdered) → sortedElements elements = elements
  | [], _ => rfl
  | element :: rest, each => by
    obtain ⟨first, others⟩ := List.forall_mem_cons.1 each
    rw [sortedElements, first.sorted_eq, sortedElements_eq_self rest others]

theorem sortedValues_eq_self : (members : List (String × Json)) →
    (∀ member ∈ members, member.2.IsOrdered) → sortedValues members = members
  | [], _ => rfl
  | (key, value) :: rest, each => by
    obtain ⟨first, others⟩ := List.forall_mem_cons.1 each
    rw [sortedValues, IsOrdered.sorted_eq first, sortedValues_eq_self rest others]

end

/-- Different keys stay different in another order, and the values in order are the same. -/
theorem Alike.sorted_eq (alike : Alike value other) (distinct : value.HasDistinctKeys) :
    other.HasDistinctKeys ∧ value.sorted = other.sorted := by
  induction alike with
  | refl value => exact ⟨distinct, rfl⟩
  | trans _ _ before behind =>
    obtain ⟨middle, first⟩ := before distinct
    obtain ⟨last, second⟩ := behind middle
    exact ⟨last, first.trans second⟩
  | element _ ih =>
    have each := everyObject_array.1 distinct
    rw [List.forall_mem_append, List.forall_mem_cons] at each
    obtain ⟨frontDistinct, firstDistinct, restDistinct⟩ := each
    obtain ⟨secondDistinct, same⟩ := ih firstDistinct
    refine ⟨everyObject_array.2 ?_, ?_⟩
    · rw [List.forall_mem_append, List.forall_mem_cons]
      exact ⟨frontDistinct, secondDistinct, restDistinct⟩
    · simp only [sorted, sortedElements_eq, List.map_append, List.map_cons, same]
  | member _ ih =>
    obtain ⟨different, each⟩ := everyObject_object.1 distinct
    rw [List.forall_mem_append, List.forall_mem_cons] at each
    obtain ⟨frontDistinct, firstDistinct, restDistinct⟩ := each
    obtain ⟨secondDistinct, same⟩ := ih firstDistinct
    refine ⟨everyObject_object.2 ⟨by simpa using different, ?_⟩, ?_⟩
    · rw [List.forall_mem_append, List.forall_mem_cons]
      exact ⟨frontDistinct, secondDistinct, restDistinct⟩
    · simp only [sorted, sortedValues_eq, List.map_append, List.map_cons, same]
  | @reorder members others reordered =>
    obtain ⟨different, each⟩ := everyObject_object.1 distinct
    have otherDifferent : (others.map Prod.fst).Nodup :=
      (reordered.map Prod.fst).nodup_iff.1 different
    refine ⟨everyObject_object.2 ⟨otherDifferent, fun member isMember =>
      each member (reordered.mem_iff.2 isMember)⟩, ?_⟩
    have keys : ((sortedValues members).map Prod.fst).Nodup := by
      rw [sortedValues_eq, List.map_map]
      exact different
    have valuesReordered : (sortedValues members).Perm (sortedValues others) := by
      rw [sortedValues_eq, sortedValues_eq]
      exact reordered.map _
    rw [sorted, sorted, sortMembers_eq_of_perm valuesReordered keys]

theorem alike_array {elements others : List Json} (front : List Json)
    (each : List.Forall₂ Alike elements others) :
    Alike (array (front ++ elements)) (array (front ++ others)) := by
  induction each generalizing front with
  | nil => exact .refl _
  | @cons first second rest behind inner _ ih =>
    have later := ih (front ++ [second])
    rw [List.append_assoc, List.append_assoc] at later
    exact .trans (.element inner) later

theorem alike_object {members others : List (String × Json)} (front : List (String × Json))
    (each : List.Forall₂ (fun first second => first.1 = second.1 ∧ Alike first.2 second.2)
      members others) :
    Alike (object (front ++ members)) (object (front ++ others)) := by
  induction each generalizing front with
  | nil => exact .refl _
  | @cons first second rest behind inner _ ih =>
    obtain ⟨key, value⟩ := first
    obtain ⟨otherKey, other⟩ := second
    obtain ⟨sameKey, inner⟩ := inner
    cases sameKey
    have later := ih (front ++ [(key, other)])
    rw [List.append_assoc, List.append_assoc] at later
    exact .trans (.member inner) later

mutual

/-- A value is put in order by reordering members if their keys are different. -/
theorem alike_sorted : (value : Json) → value.HasDistinctKeys → Alike value value.sorted
  | .null, _ => .refl _
  | .bool _, _ => .refl _
  | .number _, _ => .refl _
  | .text _, _ => .refl _
  | .array elements, distinct =>
    alike_array [] (alike_sortedElements elements (everyObject_array.1 distinct))
  | .object members, distinct => by
    obtain ⟨different, each⟩ := everyObject_object.1 distinct
    have keys : ((sortedValues members).map Prod.fst).Nodup := by
      rw [sortedValues_eq, List.map_map]
      exact different
    have reordered : (sortedValues members).Perm (sortMembers (sortedValues members)) :=
      (List.perm_ext_iff_of_nodup keys.of_map (ascending_sortMembers _).nodup.of_map).2
        fun _ => (mem_sortMembers keys).symm
    exact .trans (alike_object [] (alike_sortedValues members each)) (.reorder reordered)

theorem alike_sortedElements : (elements : List Json) →
    (∀ element ∈ elements, element.HasDistinctKeys) →
      List.Forall₂ Alike elements (sortedElements elements)
  | [], _ => .nil
  | element :: rest, each =>
    .cons (alike_sorted element (List.forall_mem_cons.1 each).1)
      (alike_sortedElements rest (List.forall_mem_cons.1 each).2)

theorem alike_sortedValues : (members : List (String × Json)) →
    (∀ member ∈ members, member.2.HasDistinctKeys) →
      List.Forall₂ (fun first second => first.1 = second.1 ∧ Alike first.2 second.2)
        members (sortedValues members)
  | [], _ => .nil
  | (_, value) :: rest, each =>
    .cons ⟨rfl, alike_sorted value (List.forall_mem_cons.1 each).1⟩
      (alike_sortedValues rest (List.forall_mem_cons.1 each).2)

end

/-- Values are alike exactly if they are the same in order. -/
theorem alike_iff_sorted_eq (distinct : value.HasDistinctKeys)
    (otherDistinct : other.HasDistinctKeys) :
    Alike value other ↔ value.sorted = other.sorted := by
  refine ⟨fun alike => (alike.sorted_eq distinct).2, fun same => ?_⟩
  have first := alike_sorted value distinct
  rw [same] at first
  exact first.trans (alike_sorted other otherDistinct).symm

end Json

end Blockwright
