import Blockwright.Proofs.Json.Members
import Blockwright.Proofs.Json.Tidy

/-!
# Parts of values

A value has itself as a part, and the parts of its elements or members. What holds of every part of
a value is shown from the inside out, and is not changed by rereading numbers.
-/

namespace Blockwright

namespace Json

/-- Whether a value stands somewhere in another one. -/
inductive Part (part : Json) : Json → Prop where
  | whole : Part part part
  | element {element : Json} {elements : List Json} (isElement : element ∈ elements)
      (inside : Part part element) : Part part (array elements)
  | member {member : String × Json} {members : List (String × Json)} (isMember : member ∈ members)
      (inside : Part part member.2) : Part part (object members)

/-- Whether all parts of a value pass a test. -/
def Every (test : Json → Prop) (value : Json) : Prop := ∀ part, Part part value → test part

variable {test : Json → Prop} {value : Json}

theorem every_array {elements : List Json} (whole : test (array elements))
    (each : ∀ element ∈ elements, element.Every test) : (array elements).Every test := by
  intro part inside
  cases inside with
  | whole => exact whole
  | element isElement inside => exact each _ isElement part inside

theorem every_object {members : List (String × Json)} (whole : test (object members))
    (each : ∀ member ∈ members, member.2.Every test) : (object members).Every test := by
  intro part inside
  cases inside with
  | whole => exact whole
  | member isMember inside => exact each _ isMember part inside

theorem every_ofMembers {members : List (String × Json)} (whole : test (ofMembers members))
    (each : ∀ member ∈ members, member.2.Every test) : (ofMembers members).Every test :=
  every_object whole fun member isMember => each member (mem_of_mem_sortMembers isMember)

theorem every_single {key : String} (whole : test (single key value)) (inner : value.Every test) :
    (single key value).Every test := by
  rw [single_eq_ofMembers] at whole ⊢
  exact every_ofMembers whole (by simpa using inner)

theorem every_of_leaf (noArray : ∀ elements, value ≠ array elements)
    (noObject : ∀ members, value ≠ object members) (whole : test value) : value.Every test := by
  intro part inside
  cases inside with
  | whole => exact whole
  | element => exact absurd rfl (noArray _)
  | member => exact absurd rfl (noObject _)

theorem every_text {value : String} (whole : test (text value)) : (text value).Every test :=
  every_of_leaf nofun nofun whole

theorem every_number {value : Number} (whole : test (number value)) : (number value).Every test :=
  every_of_leaf nofun nofun whole

theorem every_bool {value : Bool} (whole : test (bool value)) : (bool value).Every test :=
  every_of_leaf nofun nofun whole

theorem every_null (whole : test null) : null.Every test := every_of_leaf nofun nofun whole

theorem mem_rereadElements {element : Json} {elements : List Json}
    (isElement : element ∈ rereadElements elements) :
    ∃ found ∈ elements, element = found.reread := by
  induction elements with
  | nil => cases isElement
  | cons first rest ih =>
    rw [rereadElements] at isElement
    rcases List.mem_cons.1 isElement with rfl | later
    · exact ⟨first, List.mem_cons_self, rfl⟩
    · obtain ⟨found, isFound, same⟩ := ih later
      exact ⟨found, List.mem_cons_of_mem _ isFound, same⟩

theorem Part.of_reread {part value : Json} (inside : Part part value.reread) :
    ∃ found, Part found value ∧ part = found.reread := by
  generalize read : value.reread = whole at inside
  induction inside generalizing value with
  | whole => exact ⟨value, .whole, read.symm⟩
  | element isElement _ ih =>
    cases value with
    | array elements =>
      cases read
      obtain ⟨found, isFound, rfl⟩ := mem_rereadElements isElement
      obtain ⟨inner, inside, same⟩ := ih rfl
      exact ⟨inner, .element isFound inside, same⟩
    | _ => simp [reread] at read
  | member isMember _ ih =>
    cases value with
    | object members =>
      cases read
      rw [rereadMembers_eq] at isMember
      obtain ⟨found, isFound, rfl⟩ := List.mem_map.1 isMember
      obtain ⟨inner, inside, same⟩ := ih rfl
      exact ⟨inner, .member isFound inside, same⟩
    | _ => simp [reread] at read

/-- A test that rereading does not change holds of all parts of the reread value. -/
theorem Every.reread (every : value.Every test)
    (stable : ∀ part : Json, test part → test part.reread) : value.reread.Every test := by
  intro part inside
  obtain ⟨found, foundInside, rfl⟩ := inside.of_reread
  exact stable found (every found foundInside)

/-- A text under a key is not changed by rereading numbers. -/
theorem get?_reread_eq_text {key found : String} {value : Json} :
    value.reread.get? key = some (text found) ↔ value.get? key = some (text found) := by
  rw [get?_reread]
  constructor
  · intro isText
    obtain ⟨member, isMember, same⟩ := Option.map_eq_some_iff.1 isText
    cases member <;> cases same
    exact isMember
  · intro isText
    rw [isText]
    rfl

theorem get?_reread_eq_array {key : String} {elements : List Json} {value : Json}
    (isArray : value.reread.get? key = some (array elements)) :
    ∃ found, value.get? key = some (array found) ∧ elements = rereadElements found := by
  rw [get?_reread] at isArray
  obtain ⟨member, isMember, same⟩ := Option.map_eq_some_iff.1 isArray
  cases member <;> cases same
  exact ⟨_, isMember, rfl⟩

end Json

end Blockwright
