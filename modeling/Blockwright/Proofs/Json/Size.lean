import Blockwright.Proofs.Decimal.Shortest
import Blockwright.Json.Printer

/-!
# Sizes of written values

How many bytes a written value can take is told from the sizes of its texts and the depths of its
parts, without writing it.
-/

namespace Blockwright

namespace Json

theorem magnitude_one : (Binary.ofDouble 1.0).magnitude = 1 :=
  @Binary.magnitude_eq _ 400 (by decide) (by decide +kernel) (by decide +kernel)

theorem realChars_one : realChars 1.0 = ['1', '.', '0'] := by
  have shortest : (Binary.ofDouble 1.0).shortest = ⟨1, 0⟩ := by
    rw [Binary.shortest, magnitude_one]
    decide +kernel
  rw [realChars, if_neg (by decide +kernel)]
  simp only [shortest]
  decide +kernel

/-- Bytes taken by a number. The digits of a one are known without a search for them. -/
def numberRoom : Number → Nat
  | .integer value => String.utf8Len (integerChars value)
  | .real value => if value = 1.0 then 3 else String.utf8Len (realChars value)

theorem utf8Len_numberChars (value : Number) :
    String.utf8Len (numberChars value) = numberRoom value := by
  cases value with
  | integer value => rfl
  | real value =>
    rw [numberChars, numberRoom]
    split
    · next one =>
      rw [one, realChars_one]
      decide
    · rfl

mutual

/-- Bytes that are enough for a value at an indentation level. -/
def room (level : Nat) : Json → Nat
  | null => 4
  | bool _ => 5
  | number value => numberRoom value
  | text value => 6 * value.utf8ByteSize + 2
  | array elements => roomElements level elements
  | object members => roomMembers level members

/-- Bytes that are enough for elements and the brackets around them. -/
def roomElements (level : Nat) : List Json → Nat
  | [] => 2 * level + 2
  | element :: rest => 2 * level + 4 + room (level + 1) element + roomElements level rest

/-- Bytes that are enough for members and the braces around them. -/
def roomMembers (level : Nat) : List (String × Json) → Nat
  | [] => 2 * level + 2
  | (key, value) :: rest =>
    2 * level + 8 + 6 * key.utf8ByteSize + room (level + 1) value + roomMembers level rest

end

theorem utf8Len_escape_le (c : Char) : String.utf8Len (escape c) ≤ 6 * c.utf8Size := by
  have positive := c.utf8Size_pos
  by_cases printable : 0x20 ≤ c.toNat
  · rw [escape, if_pos printable]
    split_ifs
    all_goals
      simp only [String.utf8Len_cons, String.utf8Len_nil]
      have ascii : '\\'.utf8Size = 1 ∧ '"'.utf8Size = 1 := by decide
      omega
  · have each : ∀ code < 0x20, String.utf8Len (escape (Char.ofNat code)) ≤ 6 := by decide
    have short := each c.toNat (Nat.not_le.1 printable)
    rw [Char.ofNat_toNat] at short
    omega

theorem utf8Len_quoted_le (value : String) :
    String.utf8Len (quoted value) ≤ 6 * value.utf8ByteSize + 2 := by
  have each (cs : List Char) :
      String.utf8Len (cs.flatMap escape) ≤ 6 * String.utf8Len cs := by
    induction cs with
    | nil => exact le_rfl
    | cons c rest ih =>
      have one := utf8Len_escape_le c
      rw [List.flatMap_cons, String.utf8Len_append, String.utf8Len_cons]
      omega
  have inside := each value.toList
  rw [String.utf8Len_toList] at inside
  rw [quoted, String.utf8Len_cons, String.utf8Len_append]
  have quotes : '"'.utf8Size = 1 ∧ String.utf8Len ['"'] = 1 := by decide
  omega

theorem utf8Len_newline (level : Nat) : String.utf8Len (newline level) = 2 * level + 1 := by
  have spaces (count : Nat) : String.utf8Len (List.replicate count ' ') = count := by
    induction count with
    | zero => rfl
    | succ count ih =>
      rw [List.replicate_succ, String.utf8Len_cons, ih]
      rfl
  rw [newline, String.utf8Len_cons, spaces]
  rfl

/-! ## The printed form -/

theorem utf8Size_marks : ','.utf8Size = 1 ∧ '['.utf8Size = 1 ∧ '{'.utf8Size = 1 ∧
    ':'.utf8Size = 1 ∧ ' '.utf8Size = 1 ∧ String.utf8Len [']'] = 1 ∧ String.utf8Len ['}'] = 1 := by
  decide

mutual

theorem utf8Len_prettyChars_le (level : Nat) (value : Json) :
    String.utf8Len (prettyChars level value) ≤ room level value := by
  have marks := utf8Size_marks
  cases value with
  | null => exact Nat.le_of_ble_eq_true rfl
  | bool value => cases value <;> exact Nat.le_of_ble_eq_true rfl
  | number value => exact (utf8Len_numberChars value).le
  | text value => exact utf8Len_quoted_le value
  | array elements =>
    -- The first element stands behind a bracket, where the others stand behind a comma.
    cases elements with
    | nil =>
      have brackets : String.utf8Len ['[', ']'] = 2 := by decide
      rw [prettyChars, room, roomElements]
      omega
    | cons first rest =>
      have one := utf8Len_prettyChars_le (level + 1) first
      have others := utf8Len_prettyElements_le level rest
      simp only [prettyChars, room, roomElements, String.utf8Len_cons, String.utf8Len_append,
        utf8Len_newline]
      omega
  | object members =>
    cases members with
    | nil =>
      have braces : String.utf8Len ['{', '}'] = 2 := by decide
      rw [prettyChars, room, roomMembers]
      omega
    | cons first rest =>
      have key := utf8Len_quoted_le first.1
      have one := utf8Len_prettyChars_le (level + 1) first.2
      have others := utf8Len_prettyMembers_le level rest
      simp only [prettyChars, room, roomMembers, String.utf8Len_cons, String.utf8Len_append,
        utf8Len_newline]
      omega

theorem utf8Len_prettyElements_le (level : Nat) (elements : List Json) :
    String.utf8Len (prettyElements level elements) ≤ roomElements level elements := by
  have marks := utf8Size_marks
  cases elements with
  | nil =>
    rw [prettyElements, roomElements, String.utf8Len_append, utf8Len_newline]
    omega
  | cons element rest =>
    have one := utf8Len_prettyChars_le (level + 1) element
    have others := utf8Len_prettyElements_le level rest
    simp only [prettyElements, roomElements, String.utf8Len_cons, String.utf8Len_append,
      utf8Len_newline]
    omega

theorem utf8Len_prettyMembers_le (level : Nat) (members : List (String × Json)) :
    String.utf8Len (prettyMembers level members) ≤ roomMembers level members := by
  have marks := utf8Size_marks
  cases members with
  | nil =>
    rw [prettyMembers, roomMembers, String.utf8Len_append, utf8Len_newline]
    omega
  | cons member rest =>
    have key := utf8Len_quoted_le member.1
    have one := utf8Len_prettyChars_le (level + 1) member.2
    have others := utf8Len_prettyMembers_le level rest
    simp only [prettyMembers, roomMembers, String.utf8Len_cons, String.utf8Len_append,
      utf8Len_newline]
    omega

end

/-! ## Members in order -/

theorem roomMembers_addMember_le (level : Nat) (key : String) (value : Json)
    (members : List (String × Json)) :
    roomMembers level (addMember key value members) ≤
      roomMembers level ((key, value) :: members) := by
  induction members with
  | nil => exact le_rfl
  | cons member rest ih =>
    rw [addMember]
    split_ifs
    · exact le_rfl
    · simp only [roomMembers]
      omega
    · simp only [roomMembers] at ih ⊢
      omega

theorem roomMembers_sortMembers_le (level : Nat) (members : List (String × Json)) :
    roomMembers level (sortMembers members) ≤ roomMembers level members := by
  induction members with
  | nil => exact le_rfl
  | cons member rest ih =>
    refine (roomMembers_addMember_le level member.1 member.2 (sortMembers rest)).trans ?_
    simp only [roomMembers]
    omega

mutual

theorem room_sorted_le (level : Nat) (value : Json) :
    room level value.sorted ≤ room level value := by
  cases value with
  | null | bool _ | number _ | text _ => exact le_rfl
  | array elements =>
    rw [sorted, room, room]
    exact roomElements_sortedElements_le level elements
  | object members =>
    rw [sorted, room, room]
    exact (roomMembers_sortMembers_le level _).trans (roomMembers_sortedValues_le level members)

theorem roomElements_sortedElements_le (level : Nat) (elements : List Json) :
    roomElements level (sortedElements elements) ≤ roomElements level elements := by
  cases elements with
  | nil => exact le_rfl
  | cons element rest =>
    have one := room_sorted_le (level + 1) element
    have others := roomElements_sortedElements_le level rest
    simp only [sortedElements, roomElements]
    omega

theorem roomMembers_sortedValues_le (level : Nat) (members : List (String × Json)) :
    roomMembers level (sortedValues members) ≤ roomMembers level members := by
  cases members with
  | nil => exact le_rfl
  | cons member rest =>
    have one := room_sorted_le (level + 1) member.2
    have others := roomMembers_sortedValues_le level rest
    simp only [sortedValues, roomMembers]
    omega

end

/-- A printed value has at most the bytes of its room and a line feed. -/
theorem size_pretty_le (value : Json) : value.pretty.toUTF8.size ≤ room 0 value + 1 := by
  rw [String.toUTF8_eq_toByteArray, String.size_toByteArray, pretty, String.utf8ByteSize_ofList,
    String.utf8Len_append]
  exact Nat.add_le_add_right
    ((utf8Len_prettyChars_le 0 value.sorted).trans (room_sorted_le 0 value)) 1

end Json

end Blockwright
