import Blockwright.Proofs.Json.Doubles
import Blockwright.Proofs.Json.RoundTrip

/-!
# Tidy values

A tidy value has its members in order everywhere, so that it is read back unchanged up to its
numbers. Values are made tidy from the inside out.
-/

namespace Blockwright

namespace Json

/-- A value whose members are in order, whose numbers pass a test and whose containers are nested
below a depth. -/
structure Tidy (test : Number → Prop) (room : Nat) (value : Json) : Prop where
  passes : value.Passes test room
  ordered : value.sorted = value

variable {test : Number → Prop} {room : Nat}

theorem tidy_null : Tidy test room null := ⟨trivial, rfl⟩

theorem tidy_text (value : String) : Tidy test room (text value) := ⟨trivial, rfl⟩

theorem tidy_bool (value : Bool) : Tidy test room (bool value) := ⟨trivial, rfl⟩

theorem tidy_number {value : Number} (passes : test value) : Tidy test room (number value) :=
  ⟨passes, rfl⟩

theorem tidy_array {elements : List Json} (deep : 1 < room)
    (each : ∀ element ∈ elements, Tidy test (room - 1) element) :
    Tidy test room (array elements) := by
  refine ⟨⟨deep, passElements_iff.2 fun element isElement => (each element isElement).passes⟩, ?_⟩
  rw [sorted]
  congr 1
  induction elements with
  | nil => rfl
  | cons element rest ih =>
    obtain ⟨first, others⟩ := List.forall_mem_cons.1 each
    rw [sortedElements, first.ordered, ih others]

/-- Members in any order make a tidy object of tidy values. -/
theorem tidy_ofMembers {members : List (String × Json)} (deep : 1 < room)
    (each : ∀ member ∈ members, Tidy test (room - 1) member.2) :
    Tidy test room (ofMembers members) := by
  have eachSorted : ∀ member ∈ sortMembers members, Tidy test (room - 1) member.2 :=
    fun member isMember => each member (mem_of_mem_sortMembers isMember)
  refine ⟨⟨deep, passMembers_iff.2 fun member isMember => (eachSorted member isMember).passes⟩, ?_⟩
  have values : sortedValues (sortMembers members) = sortMembers members := by
    rw [sortedValues_eq]
    refine List.map_congr_left (fun member isMember => ?_) |>.trans (List.map_id _)
    rw [(eachSorted member isMember).ordered]
    rfl
  rw [ofMembers, sorted, values, sortMembers_eq_self (ascending_sortMembers members)]

theorem single_eq_ofMembers (key : String) (value : Json) :
    single key value = ofMembers [(key, value)] := rfl

theorem tidy_single {key : String} {value : Json} (deep : 1 < room)
    (tidy : Tidy test (room - 1) value) : Tidy test room (single key value) := by
  rw [single_eq_ofMembers]
  exact tidy_ofMembers deep (by simpa using tidy)

theorem tidy_texts (values : List String) (deep : 1 < room) : Tidy test room (texts values) := by
  refine tidy_array deep fun element isElement => ?_
  obtain ⟨value, -, rfl⟩ := List.mem_map.1 isElement
  exact tidy_text value

theorem tidy_nat {value : Nat} (small : value ≤ Token.significandLimit) :
    Tidy Number.IsExact room (nat value) := by
  refine tidy_number ⟨?_, ?_⟩ <;> omega

theorem tidy_real {value : Float} (finite : value.isFinite = true) :
    Tidy Number.Legible room (number (.real value)) := by
  obtain ⟨read, reads⟩ := Number.readsAs_of_isFinite finite
  exact tidy_number reads.legible

/-- A double is written so that it can be read, whatever it is. -/
theorem tidy_double (value : Float) : Tidy Number.Legible room (double value) := by
  rw [double]
  split
  · next finite => exact tidy_real finite
  · exact tidy_null

theorem Tidy.imp {other : Number → Prop} (implies : ∀ number, test number → other number)
    {value : Json} (tidy : Tidy test room value) : Tidy other room value :=
  ⟨tidy.passes.imp implies, tidy.ordered⟩

theorem Tidy.legible {value : Json} (tidy : Tidy Number.IsExact room value) :
    Tidy Number.Legible room value :=
  tidy.imp fun _ exact => exact.readsAs.legible

/-- A tidy value is read back with its numbers reread. -/
theorem Tidy.parse_pretty_reread {value : Json}
    (tidy : Tidy Number.Legible Document.depthLimit value) :
    parse value.pretty = .ok value.reread := by
  rw [parse_pretty tidy.passes, ← reread_sorted, tidy.ordered]

/-- A tidy value of integers is read back as it is. -/
theorem Tidy.parse_pretty {value : Json} (tidy : Tidy Number.IsExact Document.depthLimit value) :
    parse value.pretty = .ok value := by
  rw [IsExact.parse_pretty tidy.passes, tidy.ordered]

/-- Rereading numbers leaves the keys of an object alone. -/
theorem get?_reread (key : String) (value : Json) :
    value.reread.get? key = (value.get? key).map reread := by
  cases value with
  | object members =>
    simp only [reread, get?]
    induction members with
    | nil => rfl
    | cons member rest ih =>
      obtain ⟨other, value⟩ := member
      simp only [rereadMembers, lookup]
      split
      · rfl
      · exact ih
  | _ => simp [reread, get?]

end Json

end Blockwright
