import Blockwright.Proofs.Plan.Placeholders
import Blockwright.Proofs.Spec.WellFormed
import Blockwright.Proofs.Tree.Layout

/-!
# Paths of plans

Ids are words, and everything else in the path of a planned file is fixed. All paths of a plan are
therefore placed.
-/

namespace Blockwright

/-! ## Paths of kinds of files -/

namespace Path

variable {modId name : String} {folders : Folders}

theorem isPlaced_texture (modRoute : isRoute modId = true) (kind : AssetKind)
    (route : isRoute name = true) : IsPlaced (texture modId kind name) := by
  refine isPlaced_of_parts ["assets", modId, "textures", kind.name, name] ".png" ?_ (.inl rfl)
    (List.cons_ne_nil _ _) ?_
  · simp [texture, Text.join, ← String.toList_inj]
  · simp only [List.all_cons, modRoute, route]
    cases kind <;> decide

theorem isPlaced_model (modRoute : isRoute modId = true) (kind : AssetKind)
    (route : isRoute name = true) : IsPlaced (model modId kind name) := by
  refine isPlaced_of_parts ["assets", modId, "models", kind.name, name] ".json" ?_ (.inr rfl)
    (List.cons_ne_nil _ _) ?_
  · simp [model, Text.join, ← String.toList_inj]
  · simp only [List.all_cons, modRoute, route]
    cases kind <;> decide

theorem isPlaced_blockState (modRoute : isRoute modId = true) (route : isRoute name = true) :
    IsPlaced (blockState modId name) := by
  refine isPlaced_of_parts ["assets", modId, "blockstates", name] ".json" ?_ (.inr rfl)
    (List.cons_ne_nil _ _) ?_
  · simp [blockState, Text.join, ← String.toList_inj]
  · simp only [List.all_cons, modRoute, route]
    decide

theorem isPlaced_language (modRoute : isRoute modId = true) : IsPlaced (language modId) := by
  refine isPlaced_of_parts ["assets", modId, "lang", "en_us"] ".json" ?_ (.inr rfl)
    (List.cons_ne_nil _ _) ?_
  · simp [language, Text.join, ← String.toList_inj]
  · simp only [List.all_cons, modRoute]
    decide

theorem isPlaced_recipe (known : folders = .singular ∨ folders = .plural)
    (modRoute : isRoute modId = true) (route : isRoute name = true) :
    IsPlaced (recipe folders modId name) := by
  refine isPlaced_of_parts ["data", modId, folders.recipe, name] ".json" ?_ (.inr rfl)
    (List.cons_ne_nil _ _) ?_
  · simp [recipe, Text.join, ← String.toList_inj]
  · simp only [List.all_cons, modRoute, route]
    rcases known with rfl | rfl <;> decide

theorem isPlaced_lootTable (known : folders = .singular ∨ folders = .plural)
    (modRoute : isRoute modId = true) (route : isRoute name = true) :
    IsPlaced (lootTable folders modId name) := by
  refine isPlaced_of_parts ["data", modId, folders.lootTable, "blocks", name] ".json" ?_ (.inr rfl)
    (List.cons_ne_nil _ _) ?_
  · simp [lootTable, Text.join, ← String.toList_inj]
  · simp only [List.all_cons, modRoute, route]
    rcases known with rfl | rfl <;> decide

theorem isPlaced_tag (known : folders = .singular ∨ folders = .plural) {space : String}
    (spaceRoute : isRoute space = true) (kind : AssetKind) (route : isRoute name = true) :
    IsPlaced (tag folders space kind name) := by
  refine isPlaced_of_parts ["data", space, tagFolder folders kind, name] ".json" ?_ (.inr rfl)
    (List.cons_ne_nil _ _) ?_
  · simp [tag, Text.join, ← String.toList_inj]
  · simp only [List.all_cons, spaceRoute, route]
    rcases known with rfl | rfl <;> cases kind <;> decide

end Path

/-! ## Signs -/

theorem Text.dropEnd?_eq_some {ending text front : String}
    (dropped : Text.dropEnd? ending text = some front) : text = front ++ ending := by
  rw [Text.dropEnd?] at dropped
  split at dropped
  · next ends =>
    obtain ⟨others, same⟩ := List.isSuffixOf_iff_suffix.1 ends
    cases dropped
    rw [← String.toList_inj, String.toList_append, String.toList_ofList, ← same]
    simp
  · cases dropped

namespace Shape

theorem signMaterial_append (id : String) :
    ∃ ending ∈ ["_hanging_sign", "_sign", ""], id = signMaterial id ++ ending := by
  rw [signMaterial]
  cases hanging : Text.dropEnd? "_hanging_sign" id with
  | some front => exact ⟨_, by decide, Text.dropEnd?_eq_some hanging⟩
  | none =>
    cases standing : Text.dropEnd? "_sign" id with
    | some front => exact ⟨_, by decide, Text.dropEnd?_eq_some standing⟩
    | none => exact ⟨"", by decide, (String.append_empty).symm⟩

theorem isWord_signMaterial {id : String} (slug : Slug.IsSlug id) :
    Path.isWord (signMaterial id) = true := by
  obtain ⟨notEmpty, inner, short⟩ := Path.isWord_iff.1 (Path.isWord_of_isSlug slug)
  obtain ⟨ending, isEnding, same⟩ := signMaterial_append id
  refine Path.isWord_iff.2 ⟨fun isEmpty => ?_, fun c isCharacter => inner c ?_, ?_⟩
  · have valid := Slug.isValid_iff.2 slug
    rw [same, isEmpty, String.empty_append] at valid
    simp only [List.mem_cons, List.not_mem_nil, or_false] at isEnding
    rcases isEnding with rfl | rfl | rfl <;> exact absurd valid (by decide)
  · rw [same, String.toList_append]
    exact List.mem_append_left _ isCharacter
  · rw [same, String.utf8ByteSize_append] at short
    exact (Nat.le_add_right _ _).trans short

theorem isPlaced_entityTexture {shape : Shape} {modId id location : String}
    (modSlug : Slug.IsSlug modId) (slug : Slug.IsSlug id)
    (isSign : shape.entityTexture? modId id = some location) :
    Path.IsPlaced (Location.textureFile location) := by
  obtain ⟨folder, isFolder, rfl⟩ := Option.map_eq_some_iff.1 isSign
  have folderRoute : Path.isRoute folder = true := by
    cases shape <;> cases isFolder <;> decide
  have noColon : ':' ∉ modId.toList :=
    Slug.not_mem_of_isValid (Slug.isValid_iff.2 modSlug) (by decide)
  have location : modId ++ ":" ++ folder ++ "/" ++ signMaterial id =
      modId ++ ":" ++ (folder ++ "/" ++ signMaterial id) := by
    simp [← String.toList_inj]
  rw [location, Location.textureFile_append noColon]
  refine Path.isPlaced_of_parts ["assets", modId, "textures", folder, signMaterial id] ".png" ?_
    (.inl rfl) (List.cons_ne_nil _ _) ?_
  · simp [Text.join, ← String.toList_inj]
  · have modRoute := Path.isRoute_of_isWord (Path.isWord_of_isSlug modSlug)
    have route := Path.isRoute_of_isWord (isWord_signMaterial slug)
    simp only [List.all_cons, modRoute, folderRoute, route]
    decide

end Shape

/-! ## Files -/

theorem Slug.IsSlug.isRoute {id : String} (slug : Slug.IsSlug id) : Path.isRoute id = true :=
  Path.isRoute_of_isWord (Path.isWord_of_isSlug slug)

theorem Entity.IsFile.isPlaced {item : Entity} {modId : String} {file : TreeFile}
    (isFile : item.IsFile modId file) (modSlug : Slug.IsSlug modId)
    (wellFormed : item.WellFormed) : Path.IsPlaced file.path := by
  cases isFile with
  | texture task => exact Path.isPlaced_texture modSlug.isRoute _ wellFormed.id.isRoute
  | model text => exact Path.isPlaced_model modSlug.isRoute _ wellFormed.id.isRoute

theorem Shape.inner_ending (shape : Shape) :
    ∀ ending ∈ shape.textures ++ shape.models.map ModelTemplate.ending,
      ending.toList.all Slug.isInner = true ∧ ending.utf8ByteSize ≤ 64 := by
  cases shape <;> decide

theorem Block.IsFile.isPlaced {block : Block} {modId : String} {file : TreeFile}
    (isFile : block.IsFile modId file) (modSlug : Slug.IsSlug modId)
    (wellFormed : block.WellFormed) : Path.IsPlaced file.path := by
  have slug : Slug.IsSlug block.id := wellFormed.entity.id
  have longer : ∀ ending ∈ block.shape.textures ++ block.shape.models.map ModelTemplate.ending,
      Path.isRoute (block.id ++ ending) = true := fun ending isEnding =>
    have ⟨inner, short⟩ := block.shape.inner_ending ending isEnding
    Path.isRoute_of_isWord (Path.isWord_append slug inner short)
  cases isFile with
  | face isTexture task =>
    exact Path.isPlaced_texture modSlug.isRoute _ (longer _ (List.mem_append_left _ isTexture))
  | model isModel text =>
    exact Path.isPlaced_model modSlug.isRoute _
      (longer _ (List.mem_append_right _ (List.mem_map_of_mem isModel)))
  | blockState text => exact Path.isPlaced_blockState modSlug.isRoute slug.isRoute
  | itemModel text => exact Path.isPlaced_model modSlug.isRoute _ slug.isRoute
  | sprite task => exact Path.isPlaced_texture modSlug.isRoute _ slug.isRoute
  | sign isSign task => exact Shape.isPlaced_entityTexture modSlug slug isSign

/-- The names of tags are routes. -/
theorem Tag.IsEntry.isRoute {catalog : Catalog} {entry : Tag.Entry}
    (isEntry : Tag.IsEntry catalog entry)
    (families : ∀ family ∈ catalog.families, Slug.IsSlug family.id) :
    Path.isRoute entry.1.name = true := by
  cases isEntry with
  | @logs family isFamily kind role =>
    have word : Path.isWord (family.id ++ "_logs") = true :=
      Path.isWord_append (families family isFamily) (by decide) (by decide)
    exact Path.isRoute_of_isWord word
  | burning isFamily kind =>
    have route : Path.isRoute "logs_that_burn" = true := by decide
    exact route
  | @wooden family isFamily kind name isName role =>
    have routes : ∀ name ∈ woodenNames, Path.isRoute name = true := by decide
    exact routes name isName
  | @tool block isBlock name isTool =>
    have routes : ∀ material name, tool? material = some name → Path.isRoute name = true := by
      intro material name isTool
      cases material <;> cases isTool <;> decide
    exact routes _ name isTool

namespace Plan

variable {spec : Specification} {settings : Settings} {plan : Plan}

theorem isSlug_family {catalog : Catalog} (expanded : spec.expand = .ok catalog) :
    ∀ family ∈ catalog.families, Slug.IsSlug family.id := by
  obtain ⟨items, declared, order, rfl⟩ := Specification.expand_eq_ok.1 expanded
  intro family isFamily
  obtain ⟨wood, isWood, rfl⟩ := List.mem_map.1 isFamily
  exact (WoodSpec.check_eq_ok.1 (order.woods wood isWood)).1

/-- Every path of a plan is placed. -/
theorem isPlaced_of_mem (planned : ofSpecification spec settings = .ok plan) :
    ∀ file ∈ plan.files, Path.IsPlaced file.path := by
  obtain ⟨expanded, filed⟩ := ofSpecification_eq_ok.1 planned
  obtain ⟨assets, data, assetsOk, dataOk, -, sorted⟩ := filesOf_eq_ok.1 filed
  have modSlug := Specification.isSlug_modId expanded
  have wellFormed := Specification.wellFormed_of_expand expanded
  have known := Folders.accepted_cases settings.version
  intro file isFile
  rw [sorted, TreeFile.mem_sort, List.mem_append] at isFile
  rcases isFile with isAsset | isData
  · rcases Catalog.assetFile_cases assetsOk isAsset with rfl | ⟨item, isItem, isFile⟩ |
      ⟨block, isBlock, isFile⟩
    · exact Path.isPlaced_language modSlug.isRoute
    · exact isFile.isPlaced modSlug (wellFormed.items item isItem)
    · exact isFile.isPlaced modSlug (wellFormed.blocks block isBlock)
  · rcases (Catalog.mem_dataFiles dataOk).1 isData with ⟨recipe, isRecipe, json, -, rfl⟩ |
      isLoot | isTag
    · exact Path.isPlaced_recipe known modSlug.isRoute
        (wellFormed.recipes recipe isRecipe).id.isRoute
    · obtain ⟨block, isBlock, rfl⟩ := List.mem_map.1 isLoot
      have slug := (wellFormed.blocks block (List.mem_of_mem_filter isBlock)).entity.id
      exact Path.isPlaced_lootTable known modSlug.isRoute slug.isRoute
    · obtain ⟨tag, tagged, rfl⟩ := List.mem_map.1 isTag
      obtain ⟨value, isEntry⟩ := Tag.mem_tags.1 tagged
      have entry := Tag.isEntry_of_mem isEntry
      have spaceRoute : Path.isRoute tag.space = true := by
        rcases entry.space with space | space
        · exact space ▸ modSlug.isRoute
        · rw [space]
          decide
      exact Path.isPlaced_tag known spaceRoute _ (entry.isRoute (isSlug_family expanded))

end Plan

end Blockwright
