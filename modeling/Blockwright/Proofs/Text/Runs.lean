import Mathlib
import Blockwright.Proofs.Text.Pieces

/-!
# Runs of a text

The words of a text are its maximal runs of characters that do not separate, in lower case. Texts
have the same words exactly if one comes from the other by changes of case and by changes of
separators that neither join nor part words.
-/

namespace Blockwright

namespace Text

variable {front rest gap run characters : List Char} {found : List (List Char)} {c : Char}

/-! ## Maximal runs -/

/-- Whether lists are the maximal runs of characters that do not separate, in their order. -/
inductive HasRuns : List Char → List (List Char) → Prop
  | gap {gap : List Char} (separates : ∀ c ∈ gap, isSeparator c = true) : HasRuns gap []
  /-- A run begins behind all separators and goes on up to the next one. -/
  | run {gap run rest : List Char} {found : List (List Char)}
      (separates : ∀ c ∈ gap, isSeparator c = true) (nonempty : run ≠ [])
      (whole : ∀ c ∈ run, isSeparator c = false) (ends : ∀ c ∈ rest.head?, isSeparator c = true)
      (others : HasRuns rest found) : HasRuns (gap ++ run ++ rest) (run :: found)

namespace HasRuns

theorem start (nonempty : run ≠ []) (whole : ∀ c ∈ run, isSeparator c = false)
    (ends : ∀ c ∈ rest.head?, isSeparator c = true) (others : HasRuns rest found) :
    HasRuns (run ++ rest) (run :: found) :=
  @HasRuns.run [] run rest found (List.forall_mem_nil _) nonempty whole ends others

/-- A separator in front of a text changes none of its runs. -/
theorem cons (hasRuns : HasRuns rest found) (separates : isSeparator c = true) :
    HasRuns (c :: rest) found := by
  cases hasRuns with
  | gap all => exact .gap (List.forall_mem_cons.2 ⟨separates, all⟩)
  | run all nonempty whole ends others =>
    exact .run (List.forall_mem_cons.2 ⟨separates, all⟩) nonempty whole ends others

theorem exists_cons (hasRuns : HasRuns rest found) (joins : isSeparator c = false) :
    ∃ longer, HasRuns (c :: rest) longer := by
  have alone : ∀ other ∈ [c], isSeparator other = false := by simpa using joins
  cases hasRuns with
  | gap all =>
    refine ⟨_, .start (List.cons_ne_nil c []) alone (fun first isFirst => ?_) (.gap all)⟩
    exact all first (List.mem_of_mem_head? isFirst)
  | @run gap run rest _ all nonempty whole ends others =>
    cases gap with
    | nil =>
      exact ⟨_, .start (List.cons_ne_nil c run) (List.forall_mem_cons.2 ⟨joins, whole⟩) ends
        others⟩
    | cons first gap =>
      refine ⟨_, .start (List.cons_ne_nil c []) alone ?_ (.run all nonempty whole ends others)⟩
      rintro _ ⟨⟩
      exact all first List.mem_cons_self

end HasRuns

theorem exists_hasRuns (characters : List Char) : ∃ found, HasRuns characters found := by
  induction characters with
  | nil => exact ⟨[], .gap (List.forall_mem_nil _)⟩
  | cons c rest ih =>
    obtain ⟨found, hasRuns⟩ := ih
    cases separates : isSeparator c with
    | true => exact ⟨found, hasRuns.cons separates⟩
    | false => exact hasRuns.exists_cons separates

/-- The pieces between separators that are not empty. -/
def runs (characters : List Char) : List (List Char) :=
  (pieces isSeparator characters).filter fun piece => !piece.isEmpty

/-- Runs in lower case. -/
def lowered (found : List (List Char)) : List (List Char) := found.map (List.map Char.toLower)

theorem lowered_cons (run : List Char) (found : List (List Char)) :
    lowered (run :: found) = run.map Char.toLower :: lowered found := rfl

theorem words_eq (text : String) : words text = lowered (runs text.toList) := rfl

theorem runs_nil : runs [] = [] := rfl

theorem runs_append_cons (front rest : List Char) (separates : isSeparator c = true) :
    runs (front ++ c :: rest) = runs front ++ runs rest := by
  rw [runs, pieces_eq_splitOnP, List.splitOnP_append_cons front rest separates, List.filter_append,
    ← pieces_eq_splitOnP, ← pieces_eq_splitOnP]
  rfl

theorem runs_cons (rest : List Char) (separates : isSeparator c = true) :
    runs (c :: rest) = runs rest := runs_append_cons [] rest separates

theorem runs_gap_append (separates : ∀ c ∈ gap, isSeparator c = true) (rest : List Char) :
    runs (gap ++ rest) = runs rest := by
  induction gap with
  | nil => rfl
  | cons c gap ih =>
    rw [List.forall_mem_cons] at separates
    rw [List.cons_append, runs_cons _ separates.1, ih separates.2]

theorem runs_of_whole (nonempty : run ≠ []) (whole : ∀ c ∈ run, isSeparator c = false) :
    runs run = [run] := by
  rw [runs, pieces_eq_splitOnP, List.splitOnP_eq_singleton whole]
  simp [nonempty]

theorem HasRuns.runs_eq (hasRuns : HasRuns characters found) : runs characters = found := by
  induction hasRuns with
  | @gap gap separates => rw [← List.append_nil gap, runs_gap_append separates, runs_nil]
  | @run gap run rest _ separates nonempty whole ends _ ih =>
    rw [List.append_assoc, runs_gap_append separates, ← ih]
    cases rest with
    | nil => rw [List.append_nil, runs_nil, runs_of_whole nonempty whole]
    | cons c rest =>
      have separates : isSeparator c = true := ends c rfl
      rw [runs_append_cons _ _ separates, runs_of_whole nonempty whole, runs_cons _ separates]
      rfl

/-- The maximal runs of a text are its pieces between separators that are not empty. -/
theorem hasRuns_iff : HasRuns characters found ↔ found = runs characters := by
  refine ⟨fun hasRuns => hasRuns.runs_eq.symm, ?_⟩
  rintro rfl
  obtain ⟨found, hasRuns⟩ := exists_hasRuns characters
  rwa [hasRuns.runs_eq]

/-! ## Case -/

theorem isSeparator_of_isAlpha (letter : c.isAlpha = true) : isSeparator c = false := by
  simp only [Char.isAlpha, Char.isUpper, Char.isLower, Bool.or_eq_true, Bool.and_eq_true,
    decide_eq_true_eq, UInt32.le_iff_toNat_le, ge_iff_le] at letter
  have code : (65 ≤ c.toNat ∧ c.toNat ≤ 90) ∨ 97 ≤ c.toNat ∧ c.toNat ≤ 122 := letter
  have underscore : c ≠ '_' := by
    rintro rfl
    revert code
    decide
  have hyphen : c ≠ '-' := by
    rintro rfl
    revert code
    decide
  simp only [isSeparator, isBlank, Bool.or_eq_false_iff, Bool.and_eq_false_iff,
    beq_eq_false_iff_ne, decide_eq_false_iff_not]
  refine ⟨⟨underscore, hyphen⟩, ?_⟩
  omega

theorem isSeparator_toLower (c : Char) : isSeparator c.toLower = isSeparator c := by
  by_cases upper : c.isUpper = true
  · have letter : c.isAlpha = true := by rw [Char.isAlpha, upper, Bool.true_or]
    have small : c.toLower.isAlpha = true := by rw [Char.isAlpha_toLower_eq_isAlpha, letter]
    rw [isSeparator_of_isAlpha letter, isSeparator_of_isAlpha small]
  · rw [Char.toLower_eq_of_not_isUpper upper]

theorem pieces_map_toLower (characters : List Char) :
    pieces isSeparator (characters.map Char.toLower) =
      (pieces isSeparator characters).map (List.map Char.toLower) := by
  induction characters with
  | nil => rfl
  | cons c rest ih =>
    rw [List.map_cons, pieces, pieces, isSeparator_toLower, ih]
    split
    · rfl
    · cases pieces isSeparator rest <;> rfl

theorem runs_map_toLower (characters : List Char) :
    runs (characters.map Char.toLower) = lowered (runs characters) := by
  rw [runs, pieces_map_toLower, List.filter_map, lowered, runs]
  congr 2
  funext piece
  simp

/-! ## Spelling -/

/-- A change of a text that keeps its words. -/
inductive Respelling : List Char → List Char → Prop
  /-- A letter is written in the other case. -/
  | letter (front rest : List Char) {c other : Char} (same : c.toLower = other.toLower) :
      Respelling (front ++ c :: rest) (front ++ other :: rest)
  | exchange (front rest : List Char) {c other : Char} (separates : isSeparator c = true)
      (also : isSeparator other = true) : Respelling (front ++ c :: rest) (front ++ other :: rest)
  | double (front rest : List Char) {c other : Char} (separates : isSeparator c = true)
      (also : isSeparator other = true) :
      Respelling (front ++ c :: rest) (front ++ c :: other :: rest)
  /-- A separator is added at the beginning. -/
  | before (rest : List Char) {c : Char} (separates : isSeparator c = true) :
      Respelling rest (c :: rest)
  /-- A separator is added at the end. -/
  | behind (front : List Char) {c : Char} (separates : isSeparator c = true) :
      Respelling front (front ++ [c])

/-- Whether a text comes from another by such changes and their reversals. -/
def Respelled (before after : List Char) : Prop := Relation.EqvGen Respelling before after

variable {before after : List Char}

/-- One change keeps the runs apart from their case. -/
theorem Respelling.lowered_runs (respelling : Respelling before after) :
    lowered (runs before) = lowered (runs after) := by
  cases respelling with
  | letter front rest same =>
    rw [← runs_map_toLower, ← runs_map_toLower, List.map_append, List.map_append, List.map_cons,
      List.map_cons, same]
  | exchange front rest separates also =>
    rw [runs_append_cons front rest separates, runs_append_cons front rest also]
  | double front rest separates also =>
    rw [runs_append_cons front rest separates, runs_append_cons front _ separates,
      runs_cons rest also]
  | before rest separates => rw [runs_cons _ separates]
  | behind _ separates => rw [runs_append_cons _ [] separates, runs_nil, List.append_nil]

/-- All changes keep them. -/
theorem Respelled.lowered_runs (respelled : Respelled before after) :
    lowered (runs before) = lowered (runs after) := by
  induction respelled with
  | rel _ _ respelling => exact respelling.lowered_runs
  | refl => rfl
  | symm _ _ _ ih => exact ih.symm
  | trans _ _ _ _ _ first second => exact first.trans second

namespace Respelled

theorem of_respelling (respelling : Respelling before after) : Respelled before after :=
  .rel _ _ respelling

theorem symm (respelled : Respelled before after) : Respelled after before :=
  Relation.EqvGen.symm _ _ respelled

theorem trans {later : List Char} (respelled : Respelled before after)
    (further : Respelled after later) : Respelled before later :=
  Relation.EqvGen.trans _ _ _ respelled further

theorem refl (characters : List Char) : Respelled characters characters :=
  Relation.EqvGen.refl characters

/-- Part of a text is written in lower case. -/
theorem toLower (front run rest : List Char) :
    Respelled (front ++ (run ++ rest)) (front ++ (run.map Char.toLower ++ rest)) := by
  induction run generalizing front with
  | nil => exact refl _
  | cons c run ih =>
    have first : Respelled (front ++ c :: (run ++ rest)) (front ++ c.toLower :: (run ++ rest)) :=
      of_respelling (.letter _ _ (Char.toLower_toLower_eq_toLower c).symm)
    have others := ih (front ++ [c.toLower])
    rw [List.append_cons front c.toLower] at first
    rw [List.map_cons, List.cons_append, List.cons_append, List.append_cons front c.toLower]
    exact first.trans others

theorem gap_append (separates : ∀ c ∈ gap, isSeparator c = true) (rest : List Char) :
    Respelled (gap ++ rest) rest := by
  induction gap with
  | nil => exact refl rest
  | cons c gap ih =>
    rw [List.forall_mem_cons] at separates
    exact (of_respelling (.before _ separates.1)).symm.trans (ih separates.2)

theorem append_gap (separates : ∀ c ∈ gap, isSeparator c = true) (front : List Char) :
    Respelled (front ++ gap) front := by
  induction gap generalizing front with
  | nil => rw [List.append_nil]; exact refl front
  | cons c gap ih =>
    rw [List.forall_mem_cons] at separates
    rw [List.append_cons]
    exact (ih separates.2 _).trans (of_respelling (.behind _ separates.1)).symm

theorem underscore (front rest : List Char) (separates : ∀ c ∈ gap, isSeparator c = true)
    (nonempty : gap ≠ []) : Respelled (front ++ (gap ++ rest)) (front ++ '_' :: rest) := by
  induction gap with
  | nil => exact absurd rfl nonempty
  | cons c gap ih =>
    rw [List.forall_mem_cons] at separates
    cases gap with
    | nil => exact of_respelling (.exchange front rest separates.1 (by decide))
    | cons next gap =>
      have fewer : Respelled (front ++ c :: next :: (gap ++ rest)) (front ++ c :: (gap ++ rest)) :=
        (of_respelling (.double front _ separates.1 (separates.2 next List.mem_cons_self))).symm
      have same : Respelled (front ++ c :: (gap ++ rest)) (front ++ next :: (gap ++ rest)) :=
        of_respelling (.exchange front _ separates.1 (separates.2 next List.mem_cons_self))
      exact fewer.trans (same.trans (ih separates.2 (List.cons_ne_nil _ _)))

end Respelled

/-- Words joined by underscores. -/
def underscored : List (List Char) → List Char
  | [] => []
  | first :: others => first ++ others.flatMap fun word => '_' :: word

theorem HasRuns.respelled_behind (hasRuns : HasRuns rest found)
    (ends : ∀ c ∈ rest.head?, isSeparator c = true) (front : List Char) :
    Respelled (front ++ rest)
      (front ++ (lowered found).flatMap fun word => '_' :: word) := by
  induction hasRuns generalizing front with
  | gap separates =>
    rw [lowered, List.map_nil, List.flatMap_nil, List.append_nil]
    exact .append_gap separates front
  | @run gap run rest found separates nonempty whole further _ ih =>
    -- The rest begins with a separator, the run does not.
    have apart : gap ≠ [] := by
      rintro rfl
      obtain ⟨first, run, rfl⟩ := List.exists_cons_of_ne_nil nonempty
      have isSplit : isSeparator first = true := ends first rfl
      rw [whole first List.mem_cons_self] at isSplit
      cases isSplit
    have single : Respelled (front ++ (gap ++ run ++ rest)) (front ++ '_' :: (run ++ rest)) := by
      rw [List.append_assoc]
      exact .underscore front _ separates apart
    have small : Respelled (front ++ '_' :: (run ++ rest))
        (front ++ '_' :: (run.map Char.toLower ++ rest)) := by
      rw [List.append_cons, List.append_cons front '_' (_ ++ _)]
      exact .toLower _ run rest
    have others := ih further (front ++ '_' :: run.map Char.toLower)
    rw [lowered_cons, List.flatMap_cons]
    refine single.trans (small.trans ?_)
    simpa only [List.append_assoc, List.cons_append] using others

/-- Every text comes from its words joined by underscores. -/
theorem HasRuns.respelled (hasRuns : HasRuns characters found) :
    Respelled characters (underscored (lowered found)) := by
  cases hasRuns with
  | gap separates =>
    have start := Respelled.gap_append separates []
    rwa [List.append_nil] at start
  | @run gap run rest found separates nonempty whole ends others =>
    rw [List.append_assoc]
    have start : Respelled (gap ++ (run ++ rest)) (run ++ rest) := .gap_append separates _
    have small : Respelled (run ++ rest) (run.map Char.toLower ++ rest) := .toLower [] run rest
    exact start.trans (small.trans (others.respelled_behind ends _))

/-- Texts have the same runs apart from case exactly if one is a respelling of the other. -/
theorem respelled_iff :
    Respelled before after ↔ lowered (runs before) = lowered (runs after) := by
  refine ⟨Respelled.lowered_runs, fun same => ?_⟩
  have first := (hasRuns_iff.2 (Eq.refl (runs before))).respelled
  have second := (hasRuns_iff.2 (Eq.refl (runs after))).respelled
  rw [same] at first
  exact first.trans second.symm

end Text

end Blockwright
