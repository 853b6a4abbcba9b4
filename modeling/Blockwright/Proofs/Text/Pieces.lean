import Mathlib
import Blockwright.Text.Words

/-!
# Pieces of a text

The pieces between occurrences of a character give the text again when they are joined, and a text
that is put together at such a character has the pieces of its parts.
-/

namespace Blockwright

namespace Text

/-- Lists with a separator in each of them are parted alike, or the separator of one of them stands
further behind. -/
theorem append_separator_cases {α : Type} {separator : α} {front rest otherFront otherRest : List α}
    (same : front ++ separator :: rest = otherFront ++ separator :: otherRest) :
    (front = otherFront ∧ rest = otherRest) ∨
      (∃ middle, otherFront = front ++ separator :: middle ∧
        rest = middle ++ separator :: otherRest) ∨
      ∃ middle, front = otherFront ++ separator :: middle ∧
        otherRest = middle ++ separator :: rest := by
  rcases List.append_eq_append_iff.1 same with ⟨between, fronts, rests⟩ | ⟨between, fronts, rests⟩
  · cases between with
    | nil =>
      rw [List.append_nil] at fronts
      exact .inl ⟨fronts.symm, (List.cons.inj rests).2⟩
    | cons first middle =>
      obtain ⟨rfl, behind⟩ := List.cons.inj rests
      exact .inr (.inl ⟨middle, fronts, behind⟩)
  · cases between with
    | nil =>
      rw [List.append_nil] at fronts
      exact .inl ⟨fronts, (List.cons.inj rests).2.symm⟩
    | cons first middle =>
      obtain ⟨rfl, behind⟩ := List.cons.inj rests
      exact .inr (.inr ⟨middle, fronts, behind⟩)

/-- Lists are parted at the first separator in only one way. -/
theorem append_separator_inj {α : Type} {separator : α} {front rest otherFront otherRest : List α}
    (absent : separator ∉ front) (otherAbsent : separator ∉ otherFront) :
    front ++ separator :: rest = otherFront ++ separator :: otherRest ↔
      front = otherFront ∧ rest = otherRest := by
  constructor
  · intro same
    rcases append_separator_cases same with parts | ⟨middle, rfl, -⟩ | ⟨middle, rfl, -⟩
    · exact parts
    · simp at otherAbsent
    · simp at absent
  · rintro ⟨rfl, rfl⟩
    rfl

theorem pieces_eq_splitOnP (splits : Char → Bool) (characters : List Char) :
    pieces splits characters = characters.splitOnP splits := by
  induction characters with
  | nil => rfl
  | cons c rest ih =>
    rw [pieces, List.splitOnP_cons_eq_if_modifyHead, ih]
    split
    · rfl
    · obtain ⟨first, others, form⟩ := List.exists_cons_of_ne_nil (List.splitOnP_ne_nil splits rest)
      rw [form]
      rfl

theorem pieces_ne_nil (splits : Char → Bool) (characters : List Char) :
    pieces splits characters ≠ [] := by
  rw [pieces_eq_splitOnP]
  exact List.splitOnP_ne_nil splits characters

theorem splits_or_mem_pieces (splits : Char → Bool) {characters : List Char} {c : Char}
    (isCharacter : c ∈ characters) :
    splits c = true ∨ ∃ piece ∈ pieces splits characters, c ∈ piece := by
  induction characters with
  | nil => cases isCharacter
  | cons first rest ih =>
    obtain ⟨front, others, form⟩ := List.exists_cons_of_ne_nil (pieces_ne_nil splits rest)
    rw [form, List.exists_mem_cons_iff] at ih
    rw [pieces, form]
    dsimp only
    split
    · next isSplit =>
      rcases List.mem_cons.1 isCharacter with rfl | later
      · exact .inl isSplit
      · refine (ih later).imp_right fun inside => ?_
        rwa [List.exists_mem_cons_iff, List.exists_mem_cons_iff, or_iff_right List.not_mem_nil]
    · rw [List.exists_mem_cons_iff, List.mem_cons]
      rcases List.mem_cons.1 isCharacter with rfl | later
      · exact .inr (.inl (.inl rfl))
      · exact (ih later).imp_right (.imp_left .inr)

variable {separator : Char}

theorem splitOnChar_ne_nil (separator : Char) (text : String) :
    splitOnChar separator text ≠ [] := by
  rw [splitOnChar, Ne, List.map_eq_nil_iff]
  exact pieces_ne_nil _ _

/-- A character is the separator or stands in a piece. -/
theorem eq_or_mem_splitOnChar {text : String} {c : Char} (isCharacter : c ∈ text.toList) :
    c = separator ∨ ∃ piece ∈ splitOnChar separator text, c ∈ piece.toList := by
  rcases splits_or_mem_pieces (· == separator) isCharacter with
    isSeparator | ⟨piece, isPiece, isInside⟩
  · exact .inl (beq_iff_eq.1 isSeparator)
  · exact .inr ⟨String.ofList piece, List.mem_map_of_mem isPiece, by rwa [String.toList_ofList]⟩

theorem beq_separator_of_not_mem {text : String} (absent : separator ∉ text.toList) :
    ∀ c ∈ text.toList, (c == separator) = false := fun _ isCharacter =>
  beq_eq_false_iff_ne.2 fun same => absent (same ▸ isCharacter)

/-- A text without separators is its only piece. -/
theorem splitOnChar_of_not_mem {text : String} (absent : separator ∉ text.toList) :
    splitOnChar separator text = [text] := by
  rw [splitOnChar, pieces_eq_splitOnP,
    List.splitOnP_eq_singleton (beq_separator_of_not_mem absent), List.map_singleton,
    String.ofList_toList]

/-- The first piece is empty if the text is or begins with a separator. -/
theorem head?_splitOnChar_eq_empty {text : String} :
    (splitOnChar separator text).head? = some "" ↔
      text = "" ∨ text.toList.head? = some separator := by
  rw [splitOnChar, ← String.toList_eq_nil_iff]
  cases text.toList with
  | nil => simp [pieces]
  | cons c rest =>
    by_cases splits : c = separator
    · simp [pieces, splits]
    · obtain ⟨first, others, form⟩ :=
        List.exists_cons_of_ne_nil (pieces_ne_nil (· == separator) rest)
      simp [pieces, splits, form, ← String.toList_inj]

/-- At a separator the pieces of both sides are separate. -/
theorem splitOnChar_append (separator : Char) (front rest : String) :
    splitOnChar separator (front ++ String.singleton separator ++ rest) =
      splitOnChar separator front ++ splitOnChar separator rest := by
  have parts : pieces (· == separator) (front.toList ++ separator :: rest.toList) =
      pieces (· == separator) front.toList ++ pieces (· == separator) rest.toList := by
    simp only [pieces_eq_splitOnP]
    exact List.splitOnP_append_cons _ _ (beq_self_eq_true separator)
  rw [splitOnChar, String.toList_append, String.toList_append, String.toList_singleton,
    List.append_assoc, List.singleton_append, parts, List.map_append]
  rfl

theorem join_eq_intercalate (separator : String) (texts : List String) :
    join separator texts = separator.intercalate texts := by
  induction texts with
  | nil => rfl
  | cons first rest ih =>
    cases rest with
    | nil => simp [join]
    | cons second others =>
      rw [join, ih, String.intercalate_cons_cons]
      simp

/-- The pieces of a text are those of which it is joined. -/
theorem join_splitOnChar (separator : Char) (text : String) :
    join (String.singleton separator) (splitOnChar separator text) = text := by
  rw [← String.toList_inj, join_eq_intercalate, String.toList_intercalate, splitOnChar,
    pieces_eq_splitOnP, List.map_map]
  have unchanged : String.toList ∘ String.ofList = id := funext fun characters =>
    String.toList_ofList
  rw [unchanged, List.map_id, String.toList_singleton]
  exact List.intercalate_splitOn separator

theorem splitOnChar_injective (separator : Char) :
    Function.Injective (splitOnChar separator) :=
  Function.LeftInverse.injective (join_splitOnChar separator)

/-- If the pieces of a text are the first pieces of another, that text goes on at a separator. -/
theorem eq_append_of_prefix {text other : String}
    (starts : splitOnChar separator text <+: splitOnChar separator other) :
    other = text ∨ ∃ rest, other = text ++ String.singleton separator ++ rest := by
  obtain ⟨behind, form⟩ := starts
  by_cases isEnd : behind = []
  · rw [isEnd, List.append_nil] at form
    exact .inl (splitOnChar_injective separator form).symm
  · refine .inr ⟨join (String.singleton separator) behind, ?_⟩
    rw [← join_splitOnChar separator other, ← form, join_eq_intercalate,
      String.intercalate_append_of_ne_nil (splitOnChar_ne_nil _ _) isEnd, ← join_eq_intercalate,
      ← join_eq_intercalate, join_splitOnChar]

theorem pieces_append {splits : Char → Bool} {ending : List Char}
    (whole : ∀ c ∈ ending, splits c = false) (characters : List Char) :
    ∃ front last, pieces splits characters = front ++ [last] ∧
      pieces splits (characters ++ ending) = front ++ [last ++ ending] := by
  simp only [pieces_eq_splitOnP]
  induction characters with
  | nil => exact ⟨[], [], rfl, List.splitOnP_eq_singleton whole⟩
  | cons c rest ih =>
    obtain ⟨front, last, form, longer⟩ := ih
    rw [List.cons_append, List.splitOnP_cons_eq_if_modifyHead,
      List.splitOnP_cons_eq_if_modifyHead, form, longer]
    split
    · exact ⟨[] :: front, last, rfl, rfl⟩
    · cases front with
      | nil => exact ⟨[], c :: last, rfl, rfl⟩
      | cons first others => exact ⟨(c :: first) :: others, last, rfl, rfl⟩

/-- An ending without separators belongs to the last piece. -/
theorem splitOnChar_ending {ending : String} (absent : separator ∉ ending.toList) (text : String) :
    ∃ front last, splitOnChar separator text = front ++ [last] ∧
      splitOnChar separator (text ++ ending) = front ++ [last ++ ending] := by
  obtain ⟨front, last, form, longer⟩ :=
    pieces_append (beq_separator_of_not_mem absent) text.toList
  refine ⟨front.map String.ofList, String.ofList last, ?_, ?_⟩
  · rw [splitOnChar, form, List.map_append, List.map_singleton]
  · rw [splitOnChar, String.toList_append, longer, List.map_append, List.map_singleton,
      String.ofList_append, String.ofList_toList]

end Text

end Blockwright
