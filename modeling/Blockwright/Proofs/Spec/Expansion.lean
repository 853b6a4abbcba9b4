import Blockwright.Proofs.Outcome
import Blockwright.Spec.Expansion

/-!
# What is expanded

A specification is expanded if its entities are, its ids and its recipe ids are different, and each
of its recipes is in order. What a recipe is checked against are sets of ids and tags.
-/

namespace Blockwright

theorem firstRepeated?_eq_none {seen ids : List String} :
    firstRepeated? seen ids = none ↔ ids.Nodup ∧ ∀ id ∈ ids, id ∉ seen := by
  induction ids generalizing seen with
  | nil => simp [firstRepeated?]
  | cons id rest ih =>
    rw [firstRepeated?]
    by_cases found : id ∈ seen
    · simp [found]
    · simp only [List.contains_iff_mem, found, if_false, ih, List.nodup_cons, List.mem_cons,
        forall_eq_or_imp, not_false_eq_true, true_and]
      constructor
      · rintro ⟨different, new⟩
        refine ⟨⟨fun repeated => new id repeated (.inl rfl), different⟩, ?_⟩
        exact fun later isLater isSeen => new later isLater (.inr isSeen)
      · rintro ⟨⟨notRepeated, different⟩, new⟩
        refine ⟨different, fun later isLater => ?_⟩
        rintro (rfl | isSeen)
        · exact notRepeated isLater
        · exact new later isLater isSeen

namespace Recipe

theorem resolves_congr {known otherKnown tags otherTags : List String}
    (sameKnown : ∀ id, id ∈ known ↔ id ∈ otherKnown)
    (sameTags : ∀ tag, tag ∈ tags ↔ tag ∈ otherTags)
    (modId reference : String) :
    resolves modId known tags reference = resolves modId otherKnown otherTags reference := by
  have knownEq : ∀ id, known.contains id = otherKnown.contains id := fun id => by
    simp [sameKnown]
  have tagsEq : ∀ tag, tags.contains tag = otherTags.contains tag := fun tag => by
    simp [sameTags]
  simp only [resolves, knownEq, tagsEq]

/-- What a recipe is checked against are the ids and tags that there are. -/
theorem check_congr {known otherKnown tags otherTags : List String}
    (sameKnown : ∀ id, id ∈ known ↔ id ∈ otherKnown)
    (sameTags : ∀ tag, tag ∈ tags ↔ tag ∈ otherTags)
    (recipe : Recipe) (modId : String) :
    recipe.check modId known tags = recipe.check modId otherKnown otherTags := by
  simp only [check, resolves_congr sameKnown sameTags]

theorem checkAll_eq_ok {modId : String} {known tags seen : List String} {recipes : List Recipe} :
    checkAll modId known tags seen recipes = .ok () ↔
      (∀ recipe ∈ recipes, recipe.check modId known tags = .ok ()) ∧ (recipes.map id).Nodup ∧
        ∀ recipe ∈ recipes, recipe.id ∉ seen := by
  induction recipes generalizing seen with
  | nil => simp [checkAll]
  | cons recipe rest ih =>
    rw [checkAll]
    by_cases found : recipe.id ∈ seen
    · simp [found, throw, throwThe, MonadExceptOf.throw, bind, Except.bind]
    · simp only [List.contains_iff_mem, found, if_false, Outcome.check_bind_eq_ok, ih,
        List.mem_cons, forall_eq_or_imp, List.map_cons, List.nodup_cons, not_false_eq_true,
        true_and, List.mem_map]
      constructor
      · rintro ⟨checked, restChecked, different, new⟩
        refine ⟨⟨checked, restChecked⟩, ⟨?_, different⟩, ?_⟩
        · rintro ⟨other, isLater, same⟩
          exact new other isLater (.inl same)
        · exact fun other isLater isSeen => new other isLater (.inr isSeen)
      · rintro ⟨⟨checked, restChecked⟩, ⟨notRepeated, different⟩, new⟩
        refine ⟨checked, restChecked, different, fun other isLater => ?_⟩
        rintro (same | isSeen)
        · exact notRepeated ⟨other, isLater, same⟩
        · exact new other isLater isSeen

end Recipe

namespace Specification

/-- All blocks of a specification whose declared blocks are expanded, those of wood families
last. -/
def blocksWith (spec : Specification) (declared : List Block) : List Block :=
  declared ++ spec.woods.flatMap WoodSpec.members

/-- All recipes of a specification, those of wood families first. -/
def allRecipes (spec : Specification) : List Recipe :=
  spec.woods.flatMap (fun wood => WoodSpec.recipes wood.id) ++ spec.recipes.map RecipeSpec.expand

/-- Ids of the tags that a specification declares. -/
def tagNames (spec : Specification) : List String :=
  spec.woods.map fun wood => WoodSpec.logsTag wood.id

/-- Ids that a specification declares. -/
def knownIds (spec : Specification) (items : List Entity) (declared : List Block) : List String :=
  items.map Entity.id ++ (spec.blocksWith declared).map Block.id

/-- A specification is in order, with the given expanded items and declared blocks. -/
structure Expands (spec : Specification) (items : List Entity) (declared : List Block) : Prop where
  modId : Slug.isModId spec.modId = true
  expandsItems : spec.items.mapM EntitySpec.expand = .ok items
  expandsBlocks : spec.blocks.mapM BlockSpec.expand = .ok declared
  woods : ∀ wood ∈ spec.woods, wood.check = .ok ()
  different : (spec.knownIds items declared).Nodup
  recipes : ∀ recipe ∈ spec.allRecipes,
    recipe.check spec.modId (spec.knownIds items declared) spec.tagNames = .ok ()
  differentRecipes : (spec.allRecipes.map Recipe.id).Nodup

/-- The catalog of a specification with the given items and declared blocks. -/
def catalogOf (spec : Specification) (items : List Entity) (declared : List Block) : Catalog :=
  { modId := spec.modId
    items
    blocks := spec.blocksWith declared
    families := spec.woods.map WoodSpec.family
    recipes := spec.allRecipes }

/-- A specification expands exactly if it is in order. -/
theorem expand_eq_ok {spec : Specification} {catalog : Catalog} :
    spec.expand = .ok catalog ↔
      ∃ items declared, spec.Expands items declared ∧ catalog = spec.catalogOf items declared := by
  have modId : checkModId spec.modId = .ok () ↔ Slug.isModId spec.modId = true := by
    simp [checkModId]
  constructor
  · intro expanded
    rw [expand] at expanded
    obtain ⟨modIdOk, expanded⟩ := Outcome.check_bind_eq_ok.1 expanded
    obtain ⟨items, itemsOk, expanded⟩ := Outcome.bind_eq_ok.1 expanded
    obtain ⟨declared, declaredOk, expanded⟩ := Outcome.bind_eq_ok.1 expanded
    obtain ⟨woodsOk, expanded⟩ := Outcome.check_bind_eq_ok.1 expanded
    dsimp only at expanded
    split at expanded
    · next id repeated => cases expanded
    · next notRepeated =>
      obtain ⟨recipesOk, expanded⟩ := Outcome.check_bind_eq_ok.1 expanded
      obtain ⟨checked, differentRecipes, -⟩ := Recipe.checkAll_eq_ok.1 recipesOk
      obtain ⟨different, -⟩ :=
        firstRepeated?_eq_none.1 (Option.eq_none_iff_forall_ne_some.2 notRepeated)
      cases expanded
      exact ⟨items, declared,
        { modId := modId.1 modIdOk
          expandsItems := itemsOk
          expandsBlocks := declaredOk
          woods := Outcome.forM_eq_ok.1 woodsOk
          different
          recipes := checked
          differentRecipes }, rfl⟩
  · rintro ⟨items, declared, order, rfl⟩
    have notRepeated : firstRepeated? [] (items.map Entity.id ++
        (declared ++ spec.woods.flatMap WoodSpec.members).map Block.id) = none :=
      firstRepeated?_eq_none.2 ⟨order.different, by simp⟩
    have recipesOk : Recipe.checkAll spec.modId (spec.knownIds items declared) spec.tagNames []
        spec.allRecipes = .ok () :=
      Recipe.checkAll_eq_ok.2 ⟨order.recipes, order.differentRecipes, by simp⟩
    rw [expand]
    simp only [modId.2 order.modId, order.expandsItems, order.expandsBlocks,
      Outcome.forM_eq_ok.2 order.woods, bind, Except.bind, notRepeated]
    simp only [knownIds, blocksWith, allRecipes, tagNames] at recipesOk
    simp only [recipesOk]
    rfl

end Specification

end Blockwright
