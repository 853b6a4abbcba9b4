import Blockwright.Gate.Check
import Blockwright.Plan
import Blockwright.Proofs.Assets.Files
import Blockwright.Proofs.Plan.Reordering
import Blockwright.Proofs.Spec.Slug
import Blockwright.Proofs.Tree.Location

/-!
# Folders of data files

Among the files of a mod, those below a folder of the data of some namespace are the recipes, the
loot tables or the tags.
-/

namespace Blockwright

namespace Gate

/-- An asset is no data file. -/
theorem isInDataFolder_assets (folder rest : String) :
    isInDataFolder folder ("assets/" ++ rest) = false := by
  have front : "assets/" ++ rest = "assets" ++ String.singleton '/' ++ rest := by simp
  rw [isInDataFolder, front, Text.cut?_append (by decide)]
  rfl

/-- A data file is below the folder behind its namespace only. -/
theorem isInDataFolder_data (folder : String) {space found : String}
    (oneSpace : '/' ∉ space.toList) (oneFolder : '/' ∉ found.toList) (rest : String) :
    isInDataFolder folder ("data/" ++ space ++ "/" ++ found ++ "/" ++ rest) =
      (found == folder && rest != "") := by
  have parts : "data/" ++ space ++ "/" ++ found ++ "/" ++ rest =
      "data" ++ String.singleton '/' ++ (space ++ String.singleton '/' ++
        (found ++ String.singleton '/' ++ rest)) := by
    simp [← String.toList_inj]
  rw [isInDataFolder, parts, Text.cut?_append (by decide)]
  simp only [Text.cut?_append oneSpace, Text.cut?_append oneFolder]

end Gate

/-! ## Assets -/

/-- Whether a file is below the assets of a mod. -/
def TreeFile.IsAsset (file : TreeFile) : Prop := ∃ rest, file.path = "assets/" ++ rest

theorem TreeFile.isAsset_of_path {file : TreeFile} (first : String) (others : List String)
    (path : file.path = others.foldl (· ++ ·) ("assets/" ++ first)) : file.IsAsset := by
  induction others generalizing first with
  | nil => exact ⟨first, path⟩
  | cons next rest ih =>
    refine ih (first ++ next) ?_
    rw [path, List.foldl_cons, String.append_assoc]

theorem Entity.IsFile.isAsset {item : Entity} {modId : String} {file : TreeFile}
    (isFile : item.IsFile modId file) : file.IsAsset := by
  cases isFile with
  | texture task => exact TreeFile.isAsset_of_path modId ["/textures/", _, "/", _, ".png"] rfl
  | model text => exact TreeFile.isAsset_of_path modId ["/models/", _, "/", _, ".json"] rfl

theorem Block.IsFile.isAsset {block : Block} {modId : String} {file : TreeFile}
    (isFile : block.IsFile modId file) : file.IsAsset := by
  cases isFile with
  | face isTexture task =>
    exact TreeFile.isAsset_of_path modId ["/textures/", _, "/", _, ".png"] rfl
  | model isModel text => exact TreeFile.isAsset_of_path modId ["/models/", _, "/", _, ".json"] rfl
  | blockState text => exact TreeFile.isAsset_of_path modId ["/blockstates/", _, ".json"] rfl
  | itemModel text => exact TreeFile.isAsset_of_path modId ["/models/", _, "/", _, ".json"] rfl
  | sprite task => exact TreeFile.isAsset_of_path modId ["/textures/", _, "/", _, ".png"] rfl
  | sign isSign task => exact TreeFile.isAsset_of_path _ ["/textures/", _, ".png"] rfl

theorem Catalog.isAsset_of_mem {catalog : Catalog} {sizes : TextureSizes} {keys : List AssetKey}
    {files : List TreeFile} (mapped : catalog.assetFiles sizes keys = .ok files)
    {file : TreeFile} (isFile : file ∈ files) : file.IsAsset := by
  rcases assetFile_cases mapped isFile with rfl | ⟨item, -, isFile⟩ | ⟨block, -, isFile⟩
  · exact TreeFile.isAsset_of_path catalog.modId ["/lang/en_us.json"] rfl
  · exact isFile.isAsset
  · exact isFile.isAsset

/-! ## Data -/

namespace Tag

/-- Names of the tags of the base game that the blocks of a wood family join. -/
def woodenNames : List String :=
  woodenRoles.map Prod.fst ++ ["standing_signs", "ceiling_hanging_signs", "signs", "hanging_signs"]

/-- Whether an entry is of a kind that wood families and blocks have. -/
inductive IsEntry (catalog : Catalog) : Entry → Prop where
  | logs {family : WoodFamily} (isFamily : family ∈ catalog.families) (kind : AssetKind)
      (role : WoodRole) :
      IsEntry catalog (⟨catalog.modId, kind, WoodSpec.logsTag family.id⟩,
        Ingredient.qualifyId catalog.modId (role.blockId family.id))
  | burning {family : WoodFamily} (isFamily : family ∈ catalog.families) (kind : AssetKind) :
      IsEntry catalog (⟨"minecraft", kind, "logs_that_burn"⟩,
        "#" ++ catalog.modId ++ ":" ++ WoodSpec.logsTag family.id)
  | wooden {family : WoodFamily} (isFamily : family ∈ catalog.families) (kind : AssetKind)
      {name : String} (isName : name ∈ woodenNames) (role : WoodRole) :
      IsEntry catalog (⟨"minecraft", kind, name⟩,
        Ingredient.qualifyId catalog.modId (role.blockId family.id))
  | tool {block : Block} (isBlock : block ∈ catalog.blocks) {name : String}
      (isTool : tool? block.entity.material = some name) :
      IsEntry catalog (⟨"minecraft", .block, name⟩,
        Ingredient.qualifyId catalog.modId block.id)

theorem isEntry_of_mem {catalog : Catalog} {entry : Entry} (isEntry : entry ∈ entries catalog) :
    IsEntry catalog entry := by
  rcases List.mem_append.1 isEntry with ofFamily | ofTool
  · obtain ⟨family, isFamily, isEntry⟩ := List.mem_flatMap.1 ofFamily
    have ofKind : ∀ kind, entry ∈ familyEntriesOf catalog.modId family kind →
        IsEntry catalog entry := by
      intro kind isEntry
      simp only [familyEntriesOf, List.mem_append, List.mem_map, List.mem_singleton] at isEntry
      rcases isEntry with (⟨role, -, rfl⟩ | rfl) | ⟨named, isNamed, rfl⟩
      · exact .logs isFamily kind role
      · exact .burning isFamily kind
      · exact .wooden isFamily kind (List.mem_append_left _ (List.mem_map_of_mem isNamed)) named.2
    simp only [familyEntries, List.mem_append, List.mem_cons, List.not_mem_nil, or_false] at isEntry
    rcases isEntry with (ofBlock | ofItem) | rfl | rfl | rfl | rfl
    · exact ofKind .block ofBlock
    · exact ofKind .item ofItem
    all_goals exact .wooden isFamily _ (by decide) _
  · obtain ⟨block, isBlock, isEntry⟩ := List.mem_flatMap.1 ofTool
    obtain ⟨name, isTool, rfl⟩ := List.mem_map.1 isEntry
    exact .tool isBlock (Option.mem_toList.1 isTool)

/-- The namespace of a tag is that of the mod or that of the base game. -/
theorem IsEntry.space {catalog : Catalog} {entry : Entry} (isEntry : IsEntry catalog entry) :
    entry.1.space = catalog.modId ∨ entry.1.space = "minecraft" := by
  cases isEntry with
  | logs isFamily kind role => exact .inl rfl
  | burning isFamily kind => exact .inr rfl
  | wooden isFamily kind isName role => exact .inr rfl
  | tool isBlock isTool => exact .inr rfl

end Tag

theorem Folders.accepted_cases (version : Version) :
    accepted version = .singular ∨ accepted version = .plural := by
  rw [accepted]
  split <;> simp

namespace Catalog

variable {catalog : Catalog} {folders : Folders}

/-- A data file is a recipe, a loot table or a tag. -/
theorem mem_dataFiles {files : List TreeFile} (written : catalog.dataFiles folders = .ok files)
    {file : TreeFile} :
    file ∈ files ↔
      (∃ recipe ∈ catalog.recipes, ∃ json, recipe.toJson catalog.modId = .ok json ∧
        file = .ofText (Path.recipe folders catalog.modId recipe.id) json.pretty) ∨
      file ∈ catalog.lootFiles folders ∨ file ∈ catalog.tagFiles folders := by
  obtain ⟨recipes, recipesOk, rfl⟩ := Outcome.map_eq_ok.1 written
  rw [TreeFile.mem_sort, List.mem_append, List.mem_append, or_assoc]
  refine or_congr_left ⟨fun isFile => ?_, ?_⟩
  · obtain ⟨recipe, isRecipe, fileOk⟩ := Outcome.exists_of_mem_mapM recipesOk isFile
    obtain ⟨json, jsonOk, rfl⟩ := Outcome.map_eq_ok.1 fileOk
    exact ⟨recipe, isRecipe, json, jsonOk, rfl⟩
  · rintro ⟨recipe, isRecipe, json, jsonOk, rfl⟩
    obtain ⟨file, isFile, fileOk⟩ := Outcome.exists_result_of_mem recipesOk isRecipe
    obtain ⟨other, otherOk, rfl⟩ := Outcome.map_eq_ok.1 fileOk
    rw [Except.ok.inj (jsonOk.symm.trans otherOk)]
    exact isFile

/-- A data file below a folder is a recipe or a loot table if the folder is theirs; else it is a
tag. -/
theorem mem_dataFiles_of_isInDataFolder (noSlash : '/' ∉ catalog.modId.toList)
    (known : folders = .singular ∨ folders = .plural) {files : List TreeFile}
    (written : catalog.dataFiles folders = .ok files) {file : TreeFile} (isFile : file ∈ files)
    {folder : String} (inside : Gate.isInDataFolder folder file.path = true) :
    (folder = folders.recipe ∧ ∃ recipe ∈ catalog.recipes, ∃ json,
      recipe.toJson catalog.modId = .ok json ∧
        file = .ofText (Path.recipe folders catalog.modId recipe.id) json.pretty) ∨
    (folder = folders.lootTable ∧ file ∈ catalog.lootFiles folders) ∨ folder = "tags" := by
  have below : ∀ {space found : String} (rest : String), '/' ∉ space.toList → '/' ∉ found.toList →
      file.path = "data/" ++ space ++ "/" ++ found ++ "/" ++ rest → folder = found := by
    intro space found rest oneSpace oneFolder path
    rw [path, Gate.isInDataFolder_data folder oneSpace oneFolder, Bool.and_eq_true,
      beq_iff_eq] at inside
    exact inside.1.symm
  have oneRecipe : '/' ∉ folders.recipe.toList := by rcases known with rfl | rfl <;> decide
  have oneLoot : '/' ∉ folders.lootTable.toList := by rcases known with rfl | rfl <;> decide
  rcases (mem_dataFiles written).1 isFile with
    ⟨recipe, isRecipe, json, jsonOk, rfl⟩ | isLoot | isTag
  · refine .inl ⟨below (recipe.id ++ ".json") noSlash oneRecipe ?_,
      recipe, isRecipe, json, jsonOk, rfl⟩
    simp [TreeFile.ofText, Path.recipe, String.append_assoc]
  · refine .inr (.inl ⟨?_, isLoot⟩)
    obtain ⟨block, -, rfl⟩ := List.mem_map.1 isLoot
    refine below ("blocks/" ++ block.id ++ ".json") noSlash oneLoot ?_
    simp [TreeFile.ofText, Path.lootTable, ← String.toList_inj]
  · refine .inr (.inr ?_)
    obtain ⟨tag, tagged, rfl⟩ := List.mem_map.1 isTag
    obtain ⟨value, isEntry⟩ := Tag.mem_tags.1 tagged
    have oneSpace : '/' ∉ tag.space.toList := by
      rcases (Tag.isEntry_of_mem isEntry).space with space | space
      · exact space ▸ noSlash
      · rw [space]
        decide
    obtain ⟨kindFolder, isFolder⟩ : ∃ kindFolder,
        Path.tagFolder folders tag.kind = "tags" ++ "/" ++ kindFolder := by
      rcases known with rfl | rfl <;> cases tag.kind
      · exact ⟨"item", by decide⟩
      · exact ⟨"block", by decide⟩
      · exact ⟨"items", by decide⟩
      · exact ⟨"blocks", by decide⟩
    refine below (kindFolder ++ "/" ++ tag.name ++ ".json") oneSpace (by decide) ?_
    simp [TreeFile.ofText, Path.tag, isFolder, ← String.toList_inj]

end Catalog

end Blockwright
