import Blockwright.Proofs.Data.Folders

/-!
# Placeholders of plans

In a plan the textures are the placeholders, each with a task, and all other files are finished.
The paths are strictly ascending.
-/

namespace Blockwright

/-- Whether a file is as a plan has it: a texture that is still to be made, or a document. -/
def TreeFile.IsPlanned (file : TreeFile) : Prop :=
  (∃ front task, file = .ofTask (front ++ ".png") task) ∨
    ∃ front text, file = .ofText (front ++ ".json") text

namespace TreeFile.IsPlanned

variable {file : TreeFile}

theorem texture (front : String) (task : TextureTask) : (ofTask (front ++ ".png") task).IsPlanned :=
  .inl ⟨front, task, rfl⟩

theorem document (front text : String) : (ofText (front ++ ".json") text).IsPlanned :=
  .inr ⟨front, text, rfl⟩

/-- A texture is a placeholder, and a placeholder is a texture. -/
theorem isTexture_iff (planned : file.IsPlanned) :
    file.isTexture = true ↔ file.bytes? = none := by
  rw [isTexture, Text.isSuffixOf_iff]
  rcases planned with ⟨front, task, rfl⟩ | ⟨front, text, rfl⟩
  · exact iff_of_true ⟨front, rfl⟩ rfl
  · refine iff_of_false ?_ (by simp [ofText, bytes?])
    rintro ⟨other, same⟩
    exact Path.ne_of_ending same.symm

end TreeFile.IsPlanned

theorem Entity.IsFile.isPlanned {item : Entity} {modId : String} {file : TreeFile}
    (isFile : item.IsFile modId file) : file.IsPlanned := by
  cases isFile with
  | texture task => exact .texture _ _
  | model text => exact .document _ _

theorem Block.IsFile.isPlanned {block : Block} {modId : String} {file : TreeFile}
    (isFile : block.IsFile modId file) : file.IsPlanned := by
  cases isFile with
  | face isTexture task => exact .texture _ _
  | model isModel text => exact .document _ _
  | blockState text => exact .document _ _
  | itemModel text => exact .document _ _
  | sprite task => exact .texture _ _
  | sign isSign task => exact .texture _ _

namespace Catalog

variable {catalog : Catalog} {files : List TreeFile}

theorem isPlanned_of_mem_assetFiles {sizes : TextureSizes} {keys : List AssetKey}
    (mapped : catalog.assetFiles sizes keys = .ok files) :
    ∀ file ∈ files, file.IsPlanned := by
  intro file isFile
  rcases assetFile_cases mapped isFile with rfl | ⟨item, -, isFile⟩ | ⟨block, -, isFile⟩
  · have path : Path.language catalog.modId =
        "assets/" ++ catalog.modId ++ "/lang/en_us" ++ ".json" := by
      simp [Path.language, ← String.toList_inj]
    rw [languageFile, path]
    exact .document _ _
  · exact isFile.isPlanned
  · exact isFile.isPlanned

theorem isPlanned_of_mem_dataFiles {folders : Folders}
    (written : catalog.dataFiles folders = .ok files) : ∀ file ∈ files, file.IsPlanned := by
  intro file isFile
  rcases (mem_dataFiles written).1 isFile with ⟨recipe, -, json, -, rfl⟩ | isLoot | isTag
  · exact .document _ _
  · obtain ⟨block, -, rfl⟩ := List.mem_map.1 isLoot
    exact .document _ _
  · obtain ⟨tag, -, rfl⟩ := List.mem_map.1 isTag
    exact .document _ _

end Catalog

/-! ## Documents -/

namespace Catalog

/-- The values that the documents of a mod print. -/
def documents (catalog : Catalog) : List Json :=
  let entries := Tag.entries catalog
  catalog.language :: catalog.items.map (Entity.spriteModel · catalog.modId)
    ++ catalog.blocks.flatMap (Block.documents · catalog.modId)
    ++ catalog.recipes.filterMap (fun recipe => (recipe.toJson catalog.modId).toOption)
    ++ catalog.blocks.map (fun block => Loot.table catalog.modId block.id block.shape)
    ++ (Tag.tags entries).map fun tag => Tag.toJson (Tag.values entries tag)

variable {catalog : Catalog} {files : List TreeFile} {text : String}

theorem exists_document_of_mem_assetFiles {sizes : TextureSizes} {keys : List AssetKey}
    (mapped : catalog.assetFiles sizes keys = .ok files) {file : TreeFile} (isFile : file ∈ files)
    (isText : file.contents = .text text) : ∃ json ∈ catalog.documents, text = json.pretty := by
  simp only [documents, List.mem_append, List.mem_cons]
  rcases assetFile_cases mapped isFile with rfl | ⟨item, isItem, isFile⟩ | ⟨block, isBlock, isFile⟩
  · cases isText
    exact ⟨_, .inl (.inl (.inl (.inl (.inl rfl)))), rfl⟩
  · cases isFile with
    | texture task => cases isText
    | model isDocument =>
      cases isText
      exact ⟨_, .inl (.inl (.inl (.inl (.inr (List.mem_map.2 ⟨item, isItem, isDocument.symm⟩))))),
        rfl⟩
  · have ofBlock {json : Json} (isDocument : json ∈ block.documents catalog.modId) :
        json ∈ catalog.blocks.flatMap (Block.documents · catalog.modId) :=
      List.mem_flatMap.2 ⟨block, isBlock, isDocument⟩
    cases isFile with
    | face isTexture task => cases isText
    | sprite task => cases isText
    | sign isSign task => cases isText
    | model isModel isDocument =>
      cases isText
      exact ⟨_, .inl (.inl (.inl (.inr (ofBlock isDocument)))), rfl⟩
    | blockState isDocument =>
      cases isText
      exact ⟨_, .inl (.inl (.inl (.inr (ofBlock isDocument)))), rfl⟩
    | itemModel isDocument =>
      cases isText
      exact ⟨_, .inl (.inl (.inl (.inr (ofBlock isDocument)))), rfl⟩

theorem exists_document_of_mem_dataFiles {folders : Folders}
    (written : catalog.dataFiles folders = .ok files) {file : TreeFile} (isFile : file ∈ files)
    (isText : file.contents = .text text) : ∃ json ∈ catalog.documents, text = json.pretty := by
  simp only [documents, List.mem_append]
  rcases (mem_dataFiles written).1 isFile with ⟨recipe, isRecipe, json, made, rfl⟩ | isLoot | isTag
  · cases isText
    exact ⟨json, .inl (.inl (.inr (List.mem_filterMap.2 ⟨recipe, isRecipe, by rw [made]; rfl⟩))),
      rfl⟩
  · obtain ⟨block, isBlock, rfl⟩ := List.mem_map.1 isLoot
    cases isText
    exact ⟨_, .inl (.inr (List.mem_map_of_mem (List.mem_of_mem_filter isBlock))), rfl⟩
  · obtain ⟨tag, listed, rfl⟩ := List.mem_map.1 isTag
    cases isText
    exact ⟨_, .inr (List.mem_map.2 ⟨tag, listed, rfl⟩), rfl⟩

end Catalog

namespace Plan

variable {spec : Specification} {settings : Settings} {plan : Plan}

/-- Every document of a plan is the pretty form of a value of the mod. -/
theorem exists_document (planned : ofSpecification spec settings = .ok plan) {file : TreeFile}
    (isFile : file ∈ plan.files) {text : String} (isText : file.contents = .text text) :
    ∃ json ∈ plan.catalog.documents, text = json.pretty := by
  obtain ⟨-, filed⟩ := ofSpecification_eq_ok.1 planned
  obtain ⟨assets, data, assetsOk, dataOk, -, sorted⟩ := filesOf_eq_ok.1 filed
  rw [sorted, TreeFile.mem_sort, List.mem_append] at isFile
  rcases isFile with isAsset | isData
  · exact Catalog.exists_document_of_mem_assetFiles assetsOk isAsset isText
  · exact Catalog.exists_document_of_mem_dataFiles dataOk isData isText

theorem isPlanned_of_mem (planned : ofSpecification spec settings = .ok plan) :
    ∀ file ∈ plan.files, file.IsPlanned := by
  obtain ⟨-, filed⟩ := ofSpecification_eq_ok.1 planned
  obtain ⟨assets, data, assetsOk, dataOk, -, sorted⟩ := filesOf_eq_ok.1 filed
  intro file isFile
  rw [sorted, TreeFile.mem_sort, List.mem_append] at isFile
  exact isFile.elim (Catalog.isPlanned_of_mem_assetFiles assetsOk file)
    (Catalog.isPlanned_of_mem_dataFiles dataOk file)

/-- The paths of a plan are strictly ascending. -/
theorem pairwise_path (planned : ofSpecification spec settings = .ok plan) :
    (plan.files.map TreeFile.path).Pairwise (· < ·) := by
  obtain ⟨-, filed⟩ := ofSpecification_eq_ok.1 planned
  obtain ⟨assets, data, -, -, different, sorted⟩ := filesOf_eq_ok.1 filed
  rw [sorted]
  have nodup : ((TreeFile.sort (assets ++ data)).map TreeFile.path).Nodup :=
    ((TreeFile.sort_perm _).map TreeFile.path).nodup_iff.2 different
  have inOrder := List.pairwise_map.2 (TreeFile.pairwise_sort (assets ++ data))
  exact (inOrder.and nodup).imp fun ⟨notAfter, unlike⟩ => lt_of_le_of_ne notAfter unlike

theorem nodup_path (planned : ofSpecification spec settings = .ok plan) :
    (plan.files.map TreeFile.path).Nodup :=
  (pairwise_path planned).imp fun less => String.ne_of_lt less

end Plan

end Blockwright
