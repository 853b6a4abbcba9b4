import Blockwright.Proofs.Data.References

/-!
# Results of recipes

The file of a recipe has the qualified result of the recipe. As recipes were checked, a result of
the mod is declared; a result of another namespace is passed on as the author wrote it. Cooking
makes an item, and not from itself. -/

namespace Blockwright

/-! ## Texts in a value -/

namespace Json

/-- The text that a value has behind the keys of a path. -/
def textAt? : (path : List String) → Json → Option String
  | [], value => value.text?
  | key :: path, value => (value.get? key).bind (textAt? path)

theorem textAt?_reread (path : List String) (value : Json) :
    value.reread.textAt? path = value.textAt? path := by
  induction path generalizing value with
  | nil => cases value <;> simp [textAt?, reread, text?]
  | cons key path ih =>
    rw [textAt?, textAt?, get?_reread, Option.bind_map]
    exact congrArg _ (funext ih)

theorem textAt?_ofMembers {key : String} {path : List String} {members : List (String × Json)}
    (value : Json) (different : (members.map Prod.fst).Nodup) (isMember : (key, value) ∈ members) :
    (ofMembers members).textAt? (key :: path) = value.textAt? path := by
  rw [textAt?, (get?_ofMembers different).2 isMember, Option.bind_some]

theorem textAt?_single (key found : String) :
    (single key (text found)).textAt? [key] = some found := by
  simp [textAt?, single, get?, lookup, text?]

end Json

/-! ## What a recipe makes -/

/-- Whether a reference is marked as a tag. -/
def Recipe.Marked (reference : String) : Prop := ∃ tag, reference = "#" ++ tag

/-- Whether an id stands for what a reference leads to: something declared, if it is of the mod.
Only an id that the author put into another namespace may have a mark in it. -/
structure Catalog.Produces (catalog : Catalog) (reference id : String) : Prop where
  declared : ∀ name, id = catalog.modId ++ ":" ++ name →
    name ∈ catalog.items.map Entity.id ∨ name ∈ catalog.blocks.map Block.id
  mark : '#' ∈ id.toList → id = reference ∧
    ∃ space path, id = space ++ ":" ++ path ∧ ':' ∉ space.toList ∧ space ≠ catalog.modId

theorem Catalog.WellFormed.isSlug_of_declared {catalog : Catalog} (wellFormed : catalog.WellFormed)
    {id : String}
    (declared : id ∈ catalog.items.map Entity.id ∨ id ∈ catalog.blocks.map Block.id) :
    Slug.IsSlug id := by
  rcases declared with isItemId | isBlockId
  · obtain ⟨item, isItem, rfl⟩ := List.mem_map.1 isItemId
    exact (wellFormed.items item isItem).id
  · obtain ⟨block, isBlock, rfl⟩ := List.mem_map.1 isBlockId
    exact (wellFormed.blocks block isBlock).entity.id

namespace Recipe

/-- What a recipe makes. -/
def result : Recipe → String
  | shaped _ _ _ _ result _ => result
  | shapeless _ _ _ result _ => result
  | cooking _ _ _ _ result _ _ => result

/-- Whether a recipe needs heat. -/
def isCooking : Recipe → Bool
  | cooking .. => true
  | _ => false

/-- Whether the file of a recipe makes an item. A recipe whose result is not marked as a tag makes
what it leads to. Cooking has no other results, and does not make what it uses. -/
structure Makes (catalog : Catalog) (recipe : Recipe) (json : Json) : Prop where
  produces : ¬Marked recipe.result →
    ∃ id, json.textAt? ["result", "id"] = some id ∧ catalog.Produces recipe.result id
  unmarked : recipe.isCooking = true → ¬Marked recipe.result
  different : recipe.isCooking = true → ∀ item, json.textAt? ["ingredient", "item"] = some item →
    json.textAt? ["result", "id"] ≠ some item

variable {catalog : Catalog} {modId : String} {recipe : Recipe} {json : Json}

theorem result_mem_references (recipe : Recipe) : recipe.result ∈ recipe.references := by
  cases recipe <;> simp [result, references]

theorem textAt?_craftingResult (modId result : String) (count : UInt32) :
    (craftingResult modId result count).textAt? ["id"] =
      some (Ingredient.qualifyId modId result) :=
  Json.textAt?_ofMembers (.text _) (by simp) List.mem_cons_self

theorem textAt?_ingredient {ingredient : Ingredient} {item : String}
    (isItem : ingredient.toJson.textAt? ["item"] = some item) : ingredient = .item item := by
  cases ingredient with
  | item id =>
    rw [Ingredient.toJson, Json.textAt?_single, Option.some.injEq] at isItem
    rw [isItem]
  | tag id => simp [Ingredient.toJson, Json.textAt?, Json.single, Json.get?, Json.lookup] at isItem

theorem written_cooking {id ingredient result : String} {kind : CookingKind}
    {category : CookingCategory} {experience : Float} {time : UInt32}
    (written : (cooking id kind category ingredient result experience time).toJson modId =
      .ok json) :
    ∃ item, Ingredient.qualify modId result = .item item ∧
      Ingredient.qualify modId ingredient ≠ .item item ∧
      json.textAt? ["result", "id"] = some item ∧
      json.textAt? ["ingredient", "item"] =
        (Ingredient.qualify modId ingredient).toJson.textAt? ["item"] := by
  rw [toJson] at written
  split at written
  · cases written
  · next item isItem =>
    split at written
    · cases written
    · next different =>
      cases written
      refine ⟨item, isItem, different, ?_, ?_⟩
      · rw [Json.textAt?_ofMembers (.single "id" (.text item)) (by simp) (by simp)]
        exact Json.textAt?_single "id" item
      · exact Json.textAt?_ofMembers _ (by simp) (by simp)

theorem textAt?_result (written : recipe.toJson modId = .ok json) :
    json.textAt? ["result", "id"] = some (Ingredient.qualifyId modId recipe.result) := by
  cases recipe with
  | shaped id category pattern key result count =>
    cases written
    rw [Json.textAt?_ofMembers (craftingResult modId result count) (by simp) (by simp)]
    exact textAt?_craftingResult modId result count
  | shapeless id category ingredients result count =>
    cases written
    rw [Json.textAt?_ofMembers (craftingResult modId result count) (by simp) (by simp)]
    exact textAt?_craftingResult modId result count
  | cooking id kind category ingredient result experience time =>
    obtain ⟨item, isItem, -, found, -⟩ := written_cooking written
    rw [found, ← (Ingredient.qualify_eq_item isItem).2]
    rfl

theorem produces_qualifyId (catalogWellFormed : catalog.WellFormed)
    (modSlug : Slug.IsSlug catalog.modId) (wellFormed : recipe.WellFormed catalog)
    (unmarked : ¬Marked recipe.result) :
    catalog.Produces recipe.result (Ingredient.qualifyId catalog.modId recipe.result) := by
  have declared : ∀ name, Names catalog.modId recipe.result name →
      name ∈ catalog.items.map Entity.id ∨ name ∈ catalog.blocks.map Block.id :=
    wellFormed.items recipe.result recipe.result_mem_references fun tag same => unmarked ⟨tag, same⟩
  have noMark : ∀ name, Names catalog.modId recipe.result name →
      '#' ∉ (catalog.modId ++ ":" ++ name).toList := by
    intro name names
    have slug := catalogWellFormed.isSlug_of_declared (declared name names)
    have noMarkMod : '#' ∉ catalog.modId.toList :=
      Slug.not_mem_of_isValid (Slug.isValid_iff.2 modSlug) (by decide)
    have noMarkName : '#' ∉ name.toList :=
      Slug.not_mem_of_isValid (Slug.isValid_iff.2 slug) (by decide)
    simp [noMarkMod, noMarkName]
  constructor
  · exact fun name qualified => declared name (Ingredient.names_of_qualifyId qualified)
  · intro isMarked
    -- Only a namespace of the author keeps the id from being one of the mod, which has no mark.
    cases cut : Text.cut? ':' recipe.result with
    | none =>
      have uncut := Text.cut?_eq_none.1 cut
      have bare : Names catalog.modId recipe.result recipe.result := .bare _ uncut
      rw [Ingredient.qualifyId, if_neg (by simpa using uncut)] at isMarked
      exact absurd isMarked (noMark _ bare)
    | some parts =>
      obtain ⟨space, path⟩ := parts
      obtain ⟨oneSpace, same⟩ := Text.cut?_eq_some.1 cut
      have qualified : Ingredient.qualifyId catalog.modId recipe.result = recipe.result := by
        rw [Ingredient.qualifyId, if_pos (by simp [same])]
      rw [qualified] at isMarked ⊢
      refine ⟨rfl, space, path, same, oneSpace, ?_⟩
      rintro rfl
      have spaced : Names catalog.modId recipe.result path := by
        rw [same]
        exact .spaced path
      rw [same] at isMarked
      exact noMark path spaced isMarked

theorem makes_toJson (catalogWellFormed : catalog.WellFormed) (modSlug : Slug.IsSlug catalog.modId)
    (wellFormed : recipe.WellFormed catalog) (written : recipe.toJson catalog.modId = .ok json) :
    recipe.Makes catalog json where
  produces unmarked := ⟨_, textAt?_result written,
    produces_qualifyId catalogWellFormed modSlug wellFormed unmarked⟩
  unmarked heated := by
    cases recipe with
    | cooking =>
      obtain ⟨item, isItem, -⟩ := written_cooking written
      rintro ⟨tag, same⟩
      exact (Ingredient.qualify_eq_item isItem).1 tag same
    | _ => cases heated
  different heated item isUsed isMade := by
    cases recipe with
    | cooking =>
      obtain ⟨made, -, different, found, used⟩ := written_cooking written
      rw [used] at isUsed
      rw [found] at isMade
      cases isMade
      exact different (textAt?_ingredient isUsed)
    | _ => cases heated

theorem makes_reread (makes : recipe.Makes catalog json) : recipe.Makes catalog json.reread where
  produces unmarked := by
    obtain ⟨id, found, produced⟩ := makes.produces unmarked
    exact ⟨id, (Json.textAt?_reread _ _).trans found, produced⟩
  unmarked := makes.unmarked
  different heated item isUsed := by
    rw [Json.textAt?_reread] at isUsed ⊢
    exact makes.different heated item isUsed

end Recipe

/-! ## Recipe files -/

/-- Whether the file of a recipe makes an item. -/
structure Recipe.MakesIn (catalog : Catalog) (folders : Folders) (recipe : Recipe)
    (file : TreeFile) : Prop where
  path : file.path = Path.recipe folders catalog.modId recipe.id
  makes : ∃ json, file.json? = some json ∧ recipe.Makes catalog json

/-- Each recipe has its file, which makes what the recipe is for. -/
theorem Specification.makes_recipeFiles {spec : Specification} {catalog : Catalog}
    {folders : Folders} {files : List TreeFile} (expanded : spec.expand = .ok catalog)
    (written : catalog.recipeFiles folders = .ok files) :
    List.Forall₂ (Recipe.MakesIn catalog folders) catalog.recipes files := by
  have wellFormed := wellFormed_of_expand expanded
  have modSlug := isSlug_modId expanded
  have both := (List.forall₂_and_left _ _).2 ⟨wellFormed.recipes, Outcome.mapM_eq_ok.1 written⟩
  refine both.imp fun recipe file parts => ?_
  obtain ⟨recipeWellFormed, fileOk⟩ := parts
  obtain ⟨json, jsonOk, rfl⟩ := Outcome.map_eq_ok.1 fileOk
  exact ⟨rfl, json.reread, TreeFile.json?_ofText_reread (Recipe.tidy_toJson jsonOk) _,
    Recipe.makes_reread (Recipe.makes_toJson wellFormed modSlug recipeWellFormed jsonOk)⟩

/-- A mod with a recipe for its own item, and one for an item of the base game whose id has the mark
of tags in it. -/
def Specification.markedSmelting : Specification :=
  { modId := "ab"
    items := [{ id := "gem" }, { id := "ore" }]
    recipes := [
      .cooking .smelting { id := some "odd", ingredient := "gem", result := "minecraft:a#b" },
      .cooking .blasting { ingredient := "ore", result := "ab:gem" }] }

theorem Specification.makes_markedSmelting :
    ∃ catalog files, markedSmelting.expand = .ok catalog ∧
      catalog.recipeFiles ({} : Settings).folders = .ok files ∧
      List.Forall₂ (Recipe.MakesIn catalog ({} : Settings).folders) catalog.recipes files := by
  have expanded : markedSmelting.expand = .ok _ := rfl
  exact ⟨_, _, expanded, rfl, makes_recipeFiles expanded rfl⟩

/-- What another namespace has is not looked at, so that a mark can stand in a result. -/
theorem Specification.marked_result :
    ∃ catalog files file json, markedSmelting.expand = .ok catalog ∧
      catalog.recipeFiles ({} : Settings).folders = .ok files ∧ file ∈ files ∧
      file.json? = some json ∧ json.textAt? ["result", "id"] = some "minecraft:a#b" ∧
      '#' ∈ "minecraft:a#b".toList := by
  obtain ⟨catalog, files, expanded, filesOk, recipe, isRecipe, result⟩ :
      ∃ catalog files, markedSmelting.expand = .ok catalog ∧
        catalog.recipeFiles ({} : Settings).folders = .ok files ∧
        ∃ recipe ∈ catalog.recipes,
          Ingredient.qualifyId catalog.modId recipe.result = "minecraft:a#b" :=
    ⟨_, _, rfl, rfl, _, List.mem_cons_self, rfl⟩
  obtain ⟨file, isFile, fileOk⟩ := Outcome.exists_result_of_mem filesOk isRecipe
  obtain ⟨json, jsonOk, rfl⟩ := Outcome.map_eq_ok.1 fileOk
  have found := Recipe.textAt?_result jsonOk
  rw [result, ← Json.textAt?_reread] at found
  exact ⟨catalog, files, _, json.reread, expanded, filesOk, isFile,
    TreeFile.json?_ofText_reread (Recipe.tidy_toJson jsonOk) _, found, by decide⟩

end Blockwright
