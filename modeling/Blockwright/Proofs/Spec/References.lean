import Blockwright.Proofs.Assets.Variables
import Blockwright.Proofs.Spec.Expansion
import Blockwright.Proofs.Spec.Slug
import Blockwright.Proofs.Tree.Location

/-!
# References of recipes

A reference leads into its mod by a bare name or by one behind the id of the mod, with a mark in
front if it is a tag. A recipe is accepted if all that it so refers to is declared.
-/

namespace Blockwright

theorem Text.cut?_eq_none {separator : Char} {text : String} :
    cut? separator text = none ↔ separator ∉ text.toList := by
  constructor
  · intro uncut isInside
    obtain ⟨front, rest, parts⟩ := List.append_of_mem isInside
    rw [cut?] at uncut
    split at uncut
    · next none =>
      rw [List.dropWhile_eq_nil_iff] at none
      simpa using none separator isInside
    · cases uncut
  · intro absent
    have passes : ∀ c ∈ text.toList, (c != separator) = true := by
      rintro c isCharacter
      rw [bne_iff_ne]
      rintro rfl
      exact absent isCharacter
    rw [cut?, List.dropWhile_eq_nil_iff.2 passes]

namespace Recipe

/-- Whether a text without the mark of a tag names something of a mod: a bare name, or one behind
the id of the mod. -/
inductive Names (modId : String) : String → String → Prop where
  | bare (name : String) (uncut : ':' ∉ name.toList) : Names modId name name
  | spaced (name : String) : Names modId (modId ++ ":" ++ name) name

variable {modId text name reference : String}

theorem names_iff (oneSpace : ':' ∉ modId.toList) :
    Names modId text name ↔
      (match Text.cut? ':' text with
      | some (space, path) => if space == modId then some path else none
      | none => some text) = some name := by
  constructor
  · intro names
    cases names with
    | bare _ uncut => rw [Text.cut?_eq_none.2 uncut]
    | spaced =>
      have cut := Text.cut?_append oneSpace name
      rw [show modId ++ ":" ++ name = modId ++ String.singleton ':' ++ name from rfl, cut]
      simp
  · intro read
    cases cut : Text.cut? ':' text with
    | none =>
      rw [cut] at read
      cases read
      exact .bare text (Text.cut?_eq_none.1 cut)
    | some parts =>
      obtain ⟨space, path⟩ := parts
      obtain ⟨-, rfl⟩ := Text.cut?_eq_some.1 cut
      rw [cut] at read
      by_cases same : space = modId
      · subst same
        obtain rfl : path = name := by simpa using read
        exact .spaced path
      · simp [same] at read

/-- A marked reference is read as the tag that it names. -/
theorem target?_tag (oneSpace : ':' ∉ modId.toList) (names : Names modId text name) :
    target? modId ("#" ++ text) = some (true, name) := by
  have read := (names_iff oneSpace).1 names
  rw [target?, Text.dropStart?_eq_some.2 rfl]
  dsimp only
  cases cut : Text.cut? ':' text with
  | none => simpa [cut] using read
  | some parts => simpa [cut] using read

/-- A reference without a mark is read as the id that it names. -/
theorem target?_item (oneSpace : ':' ∉ modId.toList) (unmarked : ∀ tag, reference ≠ "#" ++ tag)
    (names : Names modId reference name) : target? modId reference = some (false, name) := by
  have read := (names_iff oneSpace).1 names
  have noTag : Text.dropStart? "#" reference = none :=
    Option.eq_none_iff_forall_ne_some.2 fun tag start =>
      unmarked tag (Text.dropStart?_eq_some.1 start)
  rw [target?, noTag]
  dsimp only
  cases cut : Text.cut? ':' reference with
  | none => simpa [cut] using read
  | some parts => simpa [cut] using read

/-- A reference without a mark that leads into another namespace is not read. -/
theorem target?_other {space path : String} (oneSpace : ':' ∉ space.toList)
    (other : space ≠ modId) (unmarked : ∀ tag, space ++ ":" ++ path ≠ "#" ++ tag) :
    target? modId (space ++ ":" ++ path) = none := by
  have noTag : Text.dropStart? "#" (space ++ ":" ++ path) = none :=
    Option.eq_none_iff_forall_ne_some.2 fun tag start =>
      unmarked tag (Text.dropStart?_eq_some.1 start)
  rw [target?, noTag]
  dsimp only
  rw [show space ++ ":" ++ path = space ++ String.singleton ':' ++ path from rfl,
    Text.cut?_append oneSpace]
  simp [other]

/-- Whether a grid has one to three rows of one to three symbols with an ingredient each, spaces
apart. -/
structure Grid (pattern : List String) (key : List (Char × String)) : Prop where
  rows : 1 ≤ pattern.length ∧ pattern.length ≤ 3
  columns : ∀ row ∈ pattern, 1 ≤ row.length ∧ row.length ≤ 3
  symbols : ∀ row ∈ pattern, ∀ symbol ∈ row.toList, symbol ≠ ' ' →
    ∃ reference, (symbol, reference) ∈ key

theorem grid_of_fault {id result : String} {category : CraftingCategory} {pattern : List String}
    {key : List (Char × String)} {count : UInt32}
    (faultless : (shaped id category pattern key result count).gridFault? = none) :
    Grid pattern key := by
  rw [gridFault?] at faultless
  split at faultless
  · cases faultless
  · next fits =>
    simp only [fitsGrid, Bool.and_eq_true, Bool.not_eq_false, decide_eq_true_eq,
      Bool.not_eq_true', List.isEmpty_eq_false_iff, List.all_eq_true] at fits
    obtain ⟨⟨some, atMost⟩, rows⟩ := fits
    rw [Option.map_eq_none_iff, unknownSymbol?, List.find?_eq_none] at faultless
    refine ⟨⟨List.length_pos_iff.2 some, atMost⟩, fun row isRow => ?_, ?_⟩
    · obtain ⟨characters, fewCharacters⟩ := rows row isRow
      refine ⟨Nat.pos_of_ne_zero fun empty => ?_, fewCharacters⟩
      rw [String.length_eq_zero_iff.1 empty] at characters
      cases characters
    · intro row isRow symbol isSymbol notBlank
      have known := faultless symbol (List.mem_flatMap.2 ⟨row, isRow, isSymbol⟩)
      simpa [notBlank] using known

/-- A recipe is accepted if its id is a slug, its grid has no fault and its references resolve. -/
theorem check_eq_ok {known tags : List String} {recipe : Recipe} :
    recipe.check modId known tags = .ok () ↔
      Slug.IsSlug recipe.id ∧ recipe.gridFault? = none ∧
        ∀ reference ∈ recipe.references, resolves modId known tags reference = true := by
  constructor
  · intro accepted
    rw [check] at accepted
    split at accepted
    · next valid =>
      dsimp only at accepted
      split at accepted
      · cases accepted
      · next noFault =>
        split at accepted
        · cases accepted
        · next noneFound =>
          refine ⟨Slug.isValid_iff.1 valid, Option.eq_none_iff_forall_ne_some.2 noFault, ?_⟩
          simpa using Option.eq_none_iff_forall_ne_some.2 noneFound
    · cases accepted
  · rintro ⟨slug, noFault, resolved⟩
    have noneFound : recipe.references.find? (fun r => !resolves modId known tags r) = none := by
      simpa using resolved
    rw [check, if_pos (Slug.isValid_iff.2 slug), noFault, noneFound]
    rfl

end Recipe

end Blockwright
