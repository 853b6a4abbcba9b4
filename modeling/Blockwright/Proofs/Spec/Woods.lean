import Blockwright.Proofs.Spec.Members
import Blockwright.Proofs.Spec.WellFormed

/-!
# Lists of woods

A mod of woods alone expands if the ids of the woods are slugs that are short enough for the ids of
their recipes, are different, and none is called after another one. Nothing else can go wrong: the
recipes of a wood have their grids, and refer to its members, its logs and the base game only.
-/

namespace Blockwright

namespace WoodSpec

/-- Greatest length of the id of a wood. -/
def limit : Nat := 37

variable {wood : String}

/-! ## Ids of a wood -/

theorem spells_blockId (spells : Slug.Spells wood.toList) (role : WoodRole) :
    Slug.Spells (role.blockId wood).toList := by
  have stripped : Slug.Spells "stripped_".toList := Slug.spells_of_isValid (by decide)
  have noun : ('_' :: role.noun.toList).all Slug.isInner = true := by cases role <;> decide
  rw [WoodRole.toList_blockId]
  refine Slug.Spells.append ?_ (List.all_eq_true.1 noun)
  rw [WoodRole.front]
  split
  · rw [String.toList_append]
    exact stripped.append fun c => spells.isInner_of_mem
  · simpa using spells

theorem spells_made {what : String} (isProduct : what ∈ products)
    (spells : Slug.Spells wood.toList) : Slug.Spells (what ++ "_from_" ++ wood).toList := by
  have table : ∀ what ∈ products, Slug.isValid (what ++ "_from_") = true := by decide
  rw [String.toList_append]
  exact (Slug.spells_of_isValid (table what isProduct)).append fun c => spells.isInner_of_mem

theorem length_blockId (role : WoodRole) (wood : String) :
    (role.blockId wood).length =
      (if role.isStripped then 9 else 0) + wood.length + 1 + role.noun.length := by
  rw [WoodRole.blockId, String.length_append, String.length_append, String.length_append,
    apply_ite String.length]
  rfl

theorem length_blockId_le (role : WoodRole) (wood : String) :
    (role.blockId wood).length ≤ wood.length + 15 := by
  have table : (if role.isStripped then 9 else 0) + 1 + role.noun.length ≤ 15 := by
    cases role <;> decide
  rw [length_blockId]
  omega

theorem isSlug_blockId (spells : Slug.Spells wood.toList) (short : wood.length ≤ 49)
    (role : WoodRole) : Slug.IsSlug (role.blockId wood) := by
  refine Slug.isSlug_iff.2 ⟨spells_blockId spells role, ?_⟩
  have := length_blockId_le role wood
  rw [Slug.limit]
  omega

theorem length_made (what wood : String) :
    (what ++ "_from_" ++ wood).length = what.length + 6 + wood.length := by
  rw [String.length_append, String.length_append]
  rfl

theorem length_planks (wood : String) :
    (WoodRole.planks.blockId wood).length = wood.length + 7 := by
  rw [length_blockId, show WoodRole.planks.noun.length = 6 from rfl]
  simp [WoodRole.isStripped]

theorem isSlug_recipeIds_iff (slug : Slug.IsSlug wood) :
    (∀ id ∈ recipeIds wood, Slug.IsSlug id) ↔ wood.length ≤ limit := by
  have spells := (Slug.isSlug_iff.1 slug).1
  constructor
  · intro each
    have longest := each (WoodRole.planks.blockId ("crafting_table" ++ "_from_" ++ wood))
      (mem_recipeIds.2 (.inr ⟨"crafting_table", by decide, rfl⟩))
    have short := (Slug.isSlug_iff.1 longest).2
    rw [length_planks, length_made, show "crafting_table".length = 14 from rfl, Slug.limit] at short
    rw [limit]
    omega
  · intro short id isRecipe
    rw [limit] at short
    rcases mem_recipeIds.1 isRecipe with ⟨role, -, rfl⟩ | ⟨what, isProduct, rfl⟩
    · exact isSlug_blockId spells (by omega) role
    · have table : ∀ what ∈ products, what.length ≤ 14 := by decide
      refine Slug.isSlug_iff.2 ⟨spells_blockId (spells_made isProduct spells) .planks, ?_⟩
      have := table what isProduct
      rw [length_planks, length_made, Slug.limit]
      omega

/-! ## What recipes refer to -/

/-- What a recipe of a wood may refer to: its members, the tag of its logs, and the base game. -/
inductive Supplies (wood : String) : String → Prop where
  | member (role : WoodRole) : Supplies wood (role.blockId wood)
  | logs : Supplies wood ("#" ++ logsTag wood)
  | other {reference : String} (foreign : "minecraft:".toList <+: reference.toList) :
      Supplies wood reference

theorem supplies_of_mem_recipes {recipe : Recipe} (isRecipe : recipe ∈ recipes wood) :
    ∀ reference ∈ recipe.references, Supplies wood reference := by
  revert recipe
  simp only [recipes, craft, craftOther, List.forall_mem_cons, Recipe.references, List.map_cons,
    List.map_nil, List.cons_append, List.nil_append, List.not_mem_nil, false_implies, implies_true,
    and_true]
  repeat' apply And.intro
  -- What the base game has is spelled out; everything else depends on the wood.
  all_goals first
    | exact .other (by decide)
    | exact .logs
    | exact .member _

theorem gridFault?_of_mem_recipes {recipe : Recipe} (isRecipe : recipe ∈ recipes wood) :
    recipe.gridFault? = none := by
  have faultless : (recipes wood).all (fun recipe => recipe.gridFault?.isNone) = true := rfl
  simpa using List.all_eq_true.1 faultless recipe isRecipe

/-- What a recipe of a wood refers to is found where the wood is. -/
theorem Supplies.resolves {modId reference : String} {known tags : List String}
    (supplies : Supplies wood reference) (modSlug : Slug.IsSlug modId)
    (notBase : modId ≠ "minecraft") (spells : Slug.Spells wood.toList)
    (members : ∀ role : WoodRole, role.blockId wood ∈ known) (logs : logsTag wood ∈ tags) :
    Recipe.resolves modId known tags reference = true := by
  have oneSpace : ':' ∉ modId.toList :=
    Slug.not_mem_of_isValid (Slug.isValid_iff.2 modSlug) (by decide)
  cases supplies with
  | member role =>
    have spelled := spells_blockId spells role
    have unmarked : ∀ tag, role.blockId wood ≠ "#" ++ tag := by
      intro tag same
      have marked : '#' ∉ (role.blockId wood).toList := spelled.not_mem (by decide)
      exact marked (by simp [same])
    rw [Recipe.resolves, Recipe.target?_item oneSpace unmarked
      (.bare _ (spelled.not_mem (by decide)))]
    simpa using members role
  | logs =>
    have spelled : Slug.Spells (logsTag wood).toList := by
      rw [logsTag, String.toList_append]
      exact spells.append (List.all_eq_true.1 (by decide))
    rw [Recipe.resolves, Recipe.target?_tag oneSpace (.bare _ (spelled.not_mem (by decide)))]
    simpa using logs
  | other foreign =>
    obtain ⟨path, same⟩ := foreign
    obtain rfl : "minecraft" ++ ":" ++ String.ofList path = reference := by
      rw [← String.toList_inj, ← same]
      simp
    have unmarked : ∀ tag, "minecraft" ++ ":" ++ String.ofList path ≠ "#" ++ tag := by
      intro tag marked
      have first := congrArg (·.toList.head?) marked
      simp at first
    rw [Recipe.resolves, Recipe.target?_other (by decide) notBase.symm unmarked]

theorem check_of_mem_recipes {modId : String} {known tags : List String} {recipe : Recipe}
    (isRecipe : recipe ∈ recipes wood) (modSlug : Slug.IsSlug modId)
    (notBase : modId ≠ "minecraft") (slug : Slug.IsSlug wood) (short : wood.length ≤ limit)
    (members : ∀ role : WoodRole, role.blockId wood ∈ known) (logs : logsTag wood ∈ tags) :
    recipe.check modId known tags = .ok () := by
  have isId := List.mem_map_of_mem (f := Recipe.id) isRecipe
  rw [map_id_recipes] at isId
  refine Recipe.check_eq_ok.2 ⟨(isSlug_recipeIds_iff slug).2 short _ isId,
    gridFault?_of_mem_recipes isRecipe, fun reference isReference => ?_⟩
  exact (supplies_of_mem_recipes isRecipe reference isReference).resolves modSlug notBase
    (Slug.isSlug_iff.1 slug).1 members logs

/-! ## Lists -/

/-- Whether woods with the given ids can stand in one mod. -/
structure Listable (ids : List String) : Prop where
  short : ∀ id ∈ ids, Slug.IsSlug id ∧ id.length ≤ limit
  different : ids.Nodup
  /-- No wood is called after another one. -/
  apart : ∀ id ∈ ids, ∀ other ∈ ids, ¬Derives id other

/-- Woods whose ids are of one length are not called after one another. -/
theorem listable_of_length {ids : List String} {length : Nat}
    (each : ∀ id ∈ ids, Slug.IsSlug id ∧ id.length = length) (short : length ≤ limit)
    (different : ids.Nodup) : Listable ids where
  short id isId := ⟨(each id isId).1, (each id isId).2.trans_le short⟩
  different := different
  apart id isId other isOther derives := by
    have longer := derives.length_lt
    rw [(each id isId).2, (each other isOther).2] at longer
    exact Nat.lt_irrefl _ longer

theorem map_id_members (woods : List WoodSpec) :
    (woods.flatMap members).map Block.id = (woods.map WoodSpec.id).flatMap blockIds := by
  rw [List.map_flatMap, List.flatMap_map]
  rfl

theorem map_id_flatMap_recipes (woods : List WoodSpec) :
    (woods.flatMap fun wood => recipes wood.id).map Recipe.id =
      (woods.map WoodSpec.id).flatMap recipeIds := by
  rw [List.map_flatMap, List.flatMap_map]
  exact congrArg (woods.flatMap ·) (funext fun wood => map_id_recipes wood.id)

/-- Whether a catalog holds the families of woods in their order and nothing else, with fifteen
blocks and twenty-four recipes for each wood. -/
structure Fills (woods : List WoodSpec) (catalog : Catalog) : Prop where
  items : catalog.items = []
  families : catalog.families = woods.map family
  blocks : catalog.blocks = woods.flatMap members
  recipes : catalog.recipes = woods.flatMap fun wood => WoodSpec.recipes wood.id
  counts : ∀ wood ∈ woods, wood.members.length = 15 ∧ (WoodSpec.recipes wood.id).length = 24

end WoodSpec

namespace Specification

variable {modId : String} {woods : List WoodSpec}

/-- The mod of woods alone is in order if its woods can stand in one mod. -/
theorem expands_woods_iff (valid : Slug.isModId modId = true) (notBase : modId ≠ "minecraft") :
    Expands { modId, woods } [] [] ↔ WoodSpec.Listable (woods.map WoodSpec.id) := by
  have modSlug := Slug.isValid_iff.1 (Slug.isValid_of_isModId valid)
  have idsEq : knownIds { modId, woods } [] [] =
      (woods.map WoodSpec.id).flatMap WoodSpec.blockIds :=
    WoodSpec.map_id_members woods
  have recipesEq : allRecipes { modId, woods } =
      woods.flatMap fun wood => WoodSpec.recipes wood.id :=
    List.append_nil _
  constructor
  · intro order
    have checked := order.recipes
    have differentRecipes := order.differentRecipes
    rw [recipesEq] at checked differentRecipes
    rw [WoodSpec.map_id_flatMap_recipes] at differentRecipes
    obtain ⟨different, apart⟩ :=
      WoodSpec.nodup_ids_iff.1 ⟨idsEq ▸ order.different, differentRecipes⟩
    refine ⟨List.forall_mem_map.2 fun wood isWood => ?_, different, apart⟩
    have slug := (WoodSpec.check_eq_ok.1 (order.woods wood isWood)).1
    refine ⟨slug, (WoodSpec.isSlug_recipeIds_iff slug).1 fun id isId => ?_⟩
    rw [← WoodSpec.map_id_recipes] at isId
    obtain ⟨recipe, isRecipe, rfl⟩ := List.mem_map.1 isId
    exact (Recipe.check_eq_ok.1 (checked recipe (List.mem_flatMap.2 ⟨wood, isWood, isRecipe⟩))).1
  · intro listable
    obtain ⟨different, differentRecipes⟩ :=
      WoodSpec.nodup_ids_iff.2 ⟨listable.different, listable.apart⟩
    have short := List.forall_mem_map.1 listable.short
    refine { modId := valid, expandsItems := rfl, expandsBlocks := rfl, woods := ?_,
             different := idsEq ▸ different, recipes := ?_, differentRecipes := ?_ }
    · intro wood isWood
      obtain ⟨slug, fits⟩ := short wood isWood
      exact WoodSpec.check_eq_ok.2 ⟨slug, WoodSpec.isSlug_blockId (Slug.isSlug_iff.1 slug).1
        (fits.trans (by decide))⟩
    · rw [recipesEq, idsEq]
      intro recipe isRecipe
      obtain ⟨wood, isWood, isRecipe⟩ := List.mem_flatMap.1 isRecipe
      obtain ⟨slug, fits⟩ := short wood isWood
      refine WoodSpec.check_of_mem_recipes isRecipe modSlug notBase slug fits (fun role => ?_)
        (List.mem_map_of_mem isWood)
      exact List.mem_flatMap.2 ⟨wood.id, List.mem_map_of_mem isWood,
        List.mem_map_of_mem role.mem_all⟩
    · rw [recipesEq, WoodSpec.map_id_flatMap_recipes]
      exact differentRecipes

theorem expand_woods_eq_ok {catalog : Catalog} :
    expand { modId, woods } = .ok catalog ↔
      Expands { modId, woods } [] [] ∧ catalog = catalogOf { modId, woods } [] [] := by
  rw [expand_eq_ok]
  constructor
  · rintro ⟨items, declared, order, same⟩
    have itemsOk := order.expandsItems
    have declaredOk := order.expandsBlocks
    cases itemsOk
    cases declaredOk
    exact ⟨order, same⟩
  · exact fun parts => ⟨[], [], parts⟩

/-- A mod of woods alone expands exactly if its woods can stand in one mod. Its catalog then has
their families in order. -/
theorem expand_woods (valid : Slug.isModId modId = true) (notBase : modId ≠ "minecraft")
    (woods : List WoodSpec) :
    ((∃ catalog, expand { modId, woods } = .ok catalog) ↔
        WoodSpec.Listable (woods.map WoodSpec.id)) ∧
      ∀ catalog, expand { modId, woods } = .ok catalog → WoodSpec.Fills woods catalog := by
  simp only [expand_woods_eq_ok, ← expands_woods_iff valid notBase]
  constructor
  · exact ⟨fun ⟨_, order, _⟩ => order, fun order => ⟨_, order, rfl⟩⟩
  · rintro catalog ⟨-, rfl⟩
    exact
      { items := rfl
        families := rfl
        blocks := rfl
        recipes := List.append_nil _
        counts := fun wood _ => ⟨rfl, rfl⟩ }

theorem expand_woods_ash :
    (∃ catalog, expand { modId := "ab", woods := [{ id := "ash" }, { id := "elm" }] } =
        .ok catalog ∧ WoodSpec.Fills [{ id := "ash" }, { id := "elm" }] catalog) ∧
      ¬∃ catalog, expand { modId := "ab", woods := [{ id := "ash" }, { id := "ash_hanging" }] } =
        .ok catalog := by
  have valid : Slug.isModId "ab" = true := by decide
  constructor
  · have valids : ∀ id ∈ ["ash", "elm"], Slug.isValid id = true ∧ id.length = 3 := by decide
    have listable : WoodSpec.Listable ["ash", "elm"] :=
      WoodSpec.listable_of_length (fun id isId => (valids id isId).imp_left Slug.isValid_iff.1)
        (by decide) (by decide)
    obtain ⟨expands, fills⟩ :=
      expand_woods valid (by decide) [{ id := "ash" }, { id := "elm" }]
    obtain ⟨catalog, expanded⟩ := expands.2 listable
    exact ⟨catalog, expanded, fills catalog expanded⟩
  · intro expanded
    have listable := (expand_woods valid (by decide) _).1.1 expanded
    exact listable.apart "ash" (by simp) "ash_hanging" (by simp) .hanging

end Specification

end Blockwright
