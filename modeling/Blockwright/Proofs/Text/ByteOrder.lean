import Mathlib
import Blockwright.Bytes

/-!
# The order of texts

Texts are compared character by character. That is the order of their UTF-8 bytes, because of two
characters the smaller one has the smaller byte where their bytes differ first.
-/

namespace Blockwright

namespace Text

/-- The UTF-8 bytes of a text. -/
def bytes (text : String) : List UInt8 := Bytes.list text.toUTF8

theorem bytes_eq (text : String) : bytes text = text.toList.flatMap String.utf8EncodeChar := by
  rw [bytes, Bytes.list, String.toUTF8, ← String.utf8Encode_toList, List.utf8Encode,
    List.toList_data_toByteArray]

theorem bytes_injective : Function.Injective bytes := by
  intro first second same
  have whole : first.toUTF8 = second.toUTF8 := by
    rw [← Bytes.ofList_list first.toUTF8, ← Bytes.ofList_list second.toUTF8]
    exact congrArg Bytes.ofList same
  exact String.toByteArray_inj.1 whole

/-- Whether byte strings differ first at a byte that is smaller in the first of them. -/
def Parts (first second : List UInt8) : Prop :=
  ∃ common less greater firstRest secondRest, first = common ++ less :: firstRest ∧
    second = common ++ greater :: secondRest ∧ less < greater

theorem Parts.append_lt {first second : List UInt8} (parts : Parts first second)
    (firstRest secondRest : List UInt8) : first ++ firstRest < second ++ secondRest := by
  obtain ⟨common, less, greater, _, _, rfl, rfl, smaller⟩ := parts
  simp only [List.append_assoc, List.cons_append]
  exact List.append_left_lt (List.Lex.rel smaller)

theorem parts_of_lt {less greater : Nat} (smaller : less < greater) (isByte : greater < 256)
    (first second : List UInt8) :
    Parts (UInt8.ofNat less :: first) (UInt8.ofNat greater :: second) := by
  refine ⟨[], _, _, _, _, rfl, rfl, ?_⟩
  rw [UInt8.lt_iff_toNat_lt, UInt8.toNat_ofNat', UInt8.toNat_ofNat', Nat.mod_eq_of_lt isByte,
    Nat.mod_eq_of_lt (smaller.trans isByte)]
  exact smaller

theorem parts_of_le {less greater : Nat} (notGreater : less ≤ greater) (isByte : greater < 256)
    {first second : List UInt8} (rest : less = greater → Parts first second) :
    Parts (UInt8.ofNat less :: first) (UInt8.ofNat greater :: second) := by
  rcases Nat.lt_or_eq_of_le notGreater with smaller | rfl
  · exact parts_of_lt smaller isByte first second
  · obtain ⟨common, less, greater, firstRest, secondRest, rfl, rfl, smaller⟩ := rest rfl
    exact ⟨_ :: common, less, greater, firstRest, secondRest, rfl, rfl, smaller⟩

theorem parts_utf8EncodeChar {c d : Char} (smaller : c < d) :
    Parts (String.utf8EncodeChar c) (String.utf8EncodeChar d) := by
  have values : c.val.toNat < d.val.toNat := smaller
  have bound : d.val.toNat < 0x110000 := by
    rcases d.valid with low | ⟨_, high⟩
    · exact low.trans (by decide)
    · exact high
  rw [String.utf8EncodeChar, String.utf8EncodeChar]
  generalize c.val.toNat = first at values ⊢
  generalize d.val.toNat = second at values bound ⊢
  -- More bytes start with a greater one; of equally many, the first that differs decides.
  by_cases one : second ≤ 127
  · rw [if_pos one, if_pos (by omega)]
    exact parts_of_lt values (by omega) _ _
  · rw [if_neg one]
    by_cases two : second ≤ 2047
    · rw [if_pos two]
      split
      · exact parts_of_lt (by omega) (by omega) _ _
      · rw [if_pos (by omega)]
        exact parts_of_le (by omega) (by omega) fun _ =>
          parts_of_lt (by omega) (by omega) _ _
    · rw [if_neg two]
      by_cases three : second ≤ 65535
      · rw [if_pos three]
        split
        · exact parts_of_lt (by omega) (by omega) _ _
        · split
          · exact parts_of_lt (by omega) (by omega) _ _
          · rw [if_pos (by omega)]
            exact parts_of_le (by omega) (by omega) fun _ =>
              parts_of_le (by omega) (by omega) fun _ => parts_of_lt (by omega) (by omega) _ _
      · rw [if_neg three]
        split
        · exact parts_of_lt (by omega) (by omega) _ _
        · split
          · exact parts_of_lt (by omega) (by omega) _ _
          · split
            · exact parts_of_lt (by omega) (by omega) _ _
            · exact parts_of_le (by omega) (by omega) fun _ =>
                parts_of_le (by omega) (by omega) fun _ =>
                  parts_of_le (by omega) (by omega) fun _ => parts_of_lt (by omega) (by omega) _ _

theorem flatMap_lt {first second : List Char} (smaller : first < second) :
    first.flatMap String.utf8EncodeChar < second.flatMap String.utf8EncodeChar := by
  induction smaller with
  | @nil d _ =>
    have front : 0 < (String.utf8EncodeChar d).length := by
      rw [String.length_utf8EncodeChar]
      exact d.utf8Size_pos
    obtain ⟨byte, others, encoded⟩ := List.exists_cons_of_length_pos front
    rw [List.flatMap_nil, List.flatMap_cons, encoded]
    exact List.Lex.nil
  | rel less =>
    simp only [List.flatMap_cons]
    exact (parts_utf8EncodeChar less).append_lt _ _
  | cons _ ih =>
    simp only [List.flatMap_cons]
    exact List.append_left_lt ih

/-- Texts have the order of their bytes. -/
theorem lt_iff_bytes {first second : String} : first < second ↔ bytes first < bytes second := by
  have forward : ∀ {first second : String}, first < second → bytes first < bytes second := by
    intro first second smaller
    rw [bytes_eq, bytes_eq]
    exact flatMap_lt (String.lt_iff_toList_lt.1 smaller)
  refine ⟨forward, fun smaller => ?_⟩
  rcases lt_trichotomy first second with before | rfl | behind
  · exact before
  · exact absurd smaller (List.lt_irrefl _)
  · exact absurd (List.lt_trans smaller (forward behind)) (List.lt_irrefl _)

theorem le_iff_bytes {first second : String} : first ≤ second ↔ bytes first ≤ bytes second := by
  rw [← not_lt, lt_iff_bytes, List.not_lt]

/-! ## ASCII -/

theorem toNat_eq_of_mem_utf8EncodeChar {byte : UInt8} {c : Char} (small : byte.toNat < 128)
    (inside : byte ∈ String.utf8EncodeChar c) : byte.toNat = c.toNat := by
  have bound : c.val.toNat < 0x110000 := by
    rcases c.valid with low | ⟨_, high⟩
    · exact low.trans (by decide)
    · exact high
  show byte.toNat = c.val.toNat
  rw [String.utf8EncodeChar] at inside
  generalize c.val.toNat = value at inside bound ⊢
  split at inside
  · next single =>
    rw [List.mem_singleton.1 inside, UInt8.toNat_ofNat']
    omega
  · -- every byte of a longer character has its highest bit set
    have high : ∀ number, 128 ≤ number → number < 256 → byte ≠ UInt8.ofNat number := by
      rintro number above isByte rfl
      rw [UInt8.toNat_ofNat'] at small
      omega
    exfalso
    split_ifs at inside
    all_goals
      simp only [List.mem_cons, List.not_mem_nil, or_false] at inside
    · rcases inside with first | last
      · exact high _ (by omega) (by omega) first
      · exact high _ (by omega) (by omega) last
    · rcases inside with first | second | last
      · exact high _ (by omega) (by omega) first
      · exact high _ (by omega) (by omega) second
      · exact high _ (by omega) (by omega) last
    · rcases inside with first | second | third | last
      · exact high _ (by omega) (by omega) first
      · exact high _ (by omega) (by omega) second
      · exact high _ (by omega) (by omega) third
      · exact high _ (by omega) (by omega) last

/-- A byte of the ASCII range belongs to the character with its number. -/
theorem ofNat_mem_of_mem_bytes {byte : UInt8} {text : String} (small : byte.toNat < 128)
    (inside : byte ∈ bytes text) : Char.ofNat byte.toNat ∈ text.toList := by
  rw [bytes_eq, List.mem_flatMap] at inside
  obtain ⟨c, isCharacter, inside⟩ := inside
  rwa [toNat_eq_of_mem_utf8EncodeChar small inside, Char.ofNat_toNat]

end Text

end Blockwright
