import Mathlib
import Blockwright.Spec.Slug

/-!
# Characters of ids

An id consists of lower-case letters, digits and underscores, so that it never contains what
separates the parts of locations and paths.
-/

namespace Blockwright

namespace Slug

theorem isInner_of_isLower {c : Char} (lower : c.isLower = true) : isInner c = true := by
  simp [isInner, lower]

/-- An id has at most as many bytes as the limit, a lower-case letter in front, and behind it what
may stand inside an id. -/
theorem parts_of_isValid {id : String} (valid : isValid id = true) :
    ∃ first rest, id.toList = first :: rest ∧ id.utf8ByteSize ≤ limit ∧
      first.isLower = true ∧ ∀ c ∈ rest, isInner c = true := by
  rw [isValid, fault?] at valid
  cases form : id.toList with
  | nil => simp [form] at valid
  | cons first rest =>
    simp only [form] at valid
    refine ⟨first, rest, rfl, ?_⟩
    split at valid
    · simp at valid
    · next short =>
      split at valid
      · simp at valid
      · next lower =>
        split at valid
        · simp at valid
        · next inner =>
          exact ⟨Nat.not_lt.1 short, by simpa using lower, by simpa using inner⟩

theorem isInner_of_mem {id : String} (valid : isValid id = true) {c : Char}
    (isCharacter : c ∈ id.toList) : isInner c = true := by
  obtain ⟨first, rest, form, -, lower, inner⟩ := parts_of_isValid valid
  rw [form] at isCharacter
  rcases List.mem_cons.1 isCharacter with rfl | later
  · exact isInner_of_isLower lower
  · exact inner c later

/-- A character that may not stand inside an id is not there. -/
theorem not_mem_of_isValid {id : String} (valid : isValid id = true) {c : Char}
    (outer : isInner c = false) : c ∉ id.toList := by
  intro isCharacter
  rw [isInner_of_mem valid isCharacter] at outer
  cases outer

theorem isValid_of_isModId {id : String} (valid : isModId id = true) : isValid id = true := by
  simp only [isModId, Bool.and_eq_true] at valid
  exact valid.2

/-- Whether a text is a lower-case letter followed by at most sixty-three lower-case letters,
digits and underscores. -/
def IsSlug (id : String) : Prop :=
  ∃ first rest, id.toList = first :: rest ∧ ('a' ≤ first ∧ first ≤ 'z') ∧ rest.length ≤ 63 ∧
    ∀ c ∈ rest, ('a' ≤ c ∧ c ≤ 'z') ∨ ('0' ≤ c ∧ c ≤ '9') ∨ c = '_'

theorem isLower_iff {c : Char} : c.isLower = true ↔ 'a' ≤ c ∧ c ≤ 'z' := by
  simp [Char.isLower, Char.le_def]

theorem isInner_iff {c : Char} :
    isInner c = true ↔ ('a' ≤ c ∧ c ≤ 'z') ∨ ('0' ≤ c ∧ c ≤ '9') ∨ c = '_' := by
  simp [isInner, Char.isDigit, isLower_iff, Char.le_def, or_assoc]

theorem utf8Size_of_isInner {c : Char} (inner : isInner c = true) : c.utf8Size = 1 := by
  rw [Char.utf8Size_eq_one_iff]
  rcases isInner_iff.1 inner with ⟨-, notAfter⟩ | ⟨-, notAfter⟩ | rfl
  · exact UInt32.le_trans notAfter (by decide)
  · exact UInt32.le_trans notAfter (by decide)
  · decide

theorem utf8Len_eq_length {characters : List Char}
    (inner : ∀ c ∈ characters, isInner c = true) :
    String.utf8Len characters = characters.length := by
  induction characters with
  | nil => rfl
  | cons first rest ih =>
    rw [String.utf8Len_cons, utf8Size_of_isInner (inner first (by simp)),
      ih fun c later => inner c (by simp [later])]
    rfl

/-- The bytes of an id are counted as its characters. -/
theorem isValid_iff {id : String} : isValid id = true ↔ IsSlug id := by
  constructor
  · intro valid
    obtain ⟨first, rest, form, short, lower, inner⟩ := parts_of_isValid valid
    have bytes : id.utf8ByteSize = (first :: rest).length := by
      rw [← String.ofList_toList (s := id), String.utf8ByteSize_ofList,
        utf8Len_eq_length fun c => isInner_of_mem valid, form]
    refine ⟨first, rest, form, isLower_iff.1 lower, ?_,
      fun c later => isInner_iff.1 (inner c later)⟩
    rw [bytes, List.length_cons] at short
    exact Nat.le_of_succ_le_succ short
  · rintro ⟨first, rest, form, lower, short, inner⟩
    have innerRest : ∀ c ∈ rest, isInner c = true := fun c later => isInner_iff.2 (inner c later)
    have bytes : id.utf8ByteSize = (first :: rest).length := by
      rw [← String.ofList_toList (s := id), String.utf8ByteSize_ofList, form]
      refine utf8Len_eq_length fun c isCharacter => ?_
      rcases List.mem_cons.1 isCharacter with rfl | later
      · exact isInner_of_isLower (isLower_iff.2 lower)
      · exact innerRest c later
    have fits : ¬ limit < id.utf8ByteSize := by
      rw [bytes, List.length_cons, limit]
      omega
    simpa [isValid, fault?, form, fits, isLower_iff.2 lower] using innerRest

/-! ## Appending to an id -/

/-- Whether characters are those of an id, which may be too many. -/
def Spells (characters : List Char) : Prop :=
  ∃ first rest, characters = first :: rest ∧ first.isLower = true ∧ ∀ c ∈ rest, isInner c = true

theorem isSlug_iff {id : String} : IsSlug id ↔ Spells id.toList ∧ id.length ≤ limit := by
  have inner : ∀ rest : List Char, (∀ c ∈ rest, isInner c = true) ↔
      ∀ c ∈ rest, ('a' ≤ c ∧ c ≤ 'z') ∨ ('0' ≤ c ∧ c ≤ '9') ∨ c = '_' :=
    fun rest => forall₂_congr fun c _ => isInner_iff
  constructor
  · rintro ⟨first, rest, form, lower, short, others⟩
    refine ⟨⟨first, rest, form, isLower_iff.2 lower, (inner rest).2 others⟩, ?_⟩
    rw [← String.length_toList, form, List.length_cons]
    exact Nat.succ_le_succ short
  · rintro ⟨⟨first, rest, form, lower, others⟩, short⟩
    rw [← String.length_toList, form, List.length_cons] at short
    exact ⟨first, rest, form, isLower_iff.1 lower, Nat.le_of_succ_le_succ short,
      (inner rest).1 others⟩

theorem spells_of_isValid {id : String} (valid : isValid id = true) : Spells id.toList :=
  (isSlug_iff.1 (isValid_iff.1 valid)).1

namespace Spells

variable {front rest : List Char}

theorem isInner_of_mem (spells : Spells front) {c : Char} (isCharacter : c ∈ front) :
    isInner c = true := by
  obtain ⟨first, others, rfl, lower, inner⟩ := spells
  rcases List.mem_cons.1 isCharacter with rfl | later
  · exact isInner_of_isLower lower
  · exact inner c later

theorem not_mem (spells : Spells front) {c : Char} (outer : isInner c = false) : c ∉ front := by
  intro isCharacter
  rw [spells.isInner_of_mem isCharacter] at outer
  cases outer

theorem append (spells : Spells front) (inner : ∀ c ∈ rest, isInner c = true) :
    Spells (front ++ rest) := by
  obtain ⟨first, others, rfl, lower, innerOthers⟩ := spells
  exact ⟨first, others ++ rest, rfl, lower, List.forall_mem_append.2 ⟨innerOthers, inner⟩⟩

end Spells

end Slug

end Blockwright
