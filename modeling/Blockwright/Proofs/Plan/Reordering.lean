import Blockwright.Build
import Blockwright.Proofs.Ascending
import Blockwright.Proofs.Json.Members
import Blockwright.Proofs.Spec.Expansion

/-!
# Declarations in another order

Items, blocks, wood types and recipes may be declared in any order: the catalogs differ in the
order of their lists only, and everything that is made from these lists is a set, a look-up by an
id that stands once, or sorted in the end.
-/

namespace Blockwright

/-- Values with different keys are found by their keys in any order. -/
theorem find?_eq_of_perm {α : Type} {key : α → String} {first second : List α}
    (reordered : first.Perm second) (different : (first.map key).Nodup) (id : String) :
    first.find? (fun value => key value == id) = second.find? (fun value => key value == id) := by
  have unique : ∀ {values : List α}, (values.map key).Nodup → ∀ value,
      values.find? (fun value => key value == id) = some value ↔
        value ∈ values ∧ key value = id := by
    intro values different value
    constructor
    · intro found
      exact ⟨List.mem_of_find?_eq_some found, by simpa using List.find?_some found⟩
    · rintro ⟨isValue, hasKey⟩
      cases found : values.find? (fun value => key value == id) with
      | none => simpa [hasKey] using List.find?_eq_none.1 found value isValue
      | some other =>
        have otherKey : key other = id := by simpa using List.find?_some found
        rw [List.inj_on_of_nodup_map different (List.mem_of_find?_eq_some found) isValue
          (otherKey.trans hasKey.symm)]
  have secondDifferent : (second.map key).Nodup := (reordered.map key).nodup_iff.1 different
  apply Option.ext
  intro value
  rw [unique different, unique secondDifferent, reordered.mem_iff]

/-! ## Specifications and catalogs -/

/-- Specifications that differ at most in the order of their declarations. -/
structure Specification.Reordered (spec other : Specification) : Prop where
  modId : spec.modId = other.modId
  items : spec.items.Perm other.items
  blocks : spec.blocks.Perm other.blocks
  woods : spec.woods.Perm other.woods
  recipes : spec.recipes.Perm other.recipes

/-- Catalogs that differ at most in the order of their lists. -/
structure Catalog.Reordered (catalog other : Catalog) : Prop where
  modId : catalog.modId = other.modId
  items : catalog.items.Perm other.items
  blocks : catalog.blocks.Perm other.blocks
  families : catalog.families.Perm other.families
  recipes : catalog.recipes.Perm other.recipes

/-- Whether the items and blocks of a catalog have different ids. -/
def Catalog.DifferentIds (catalog : Catalog) : Prop :=
  (catalog.items.map Entity.id ++ catalog.blocks.map Block.id).Nodup

namespace Specification

theorem differentIds_of_expand {spec : Specification} {catalog : Catalog}
    (expanded : spec.expand = .ok catalog) : catalog.DifferentIds := by
  obtain ⟨items, declared, order, rfl⟩ := expand_eq_ok.1 expanded
  exact order.different

/-- A specification whose declarations stand in another order expands to the same catalog in
another order. -/
theorem Reordered.expand {spec other : Specification} (reordered : spec.Reordered other)
    {catalog : Catalog} (expanded : spec.expand = .ok catalog) :
    ∃ otherCatalog, other.expand = .ok otherCatalog ∧ catalog.Reordered otherCatalog := by
  obtain ⟨items, declared, order, rfl⟩ := expand_eq_ok.1 expanded
  obtain ⟨otherItems, otherItemsOk, itemsPerm⟩ :=
    Outcome.mapM_perm order.expandsItems reordered.items
  obtain ⟨otherDeclared, otherDeclaredOk, declaredPerm⟩ :=
    Outcome.mapM_perm order.expandsBlocks reordered.blocks
  have blocksPerm : (spec.blocksWith declared).Perm (other.blocksWith otherDeclared) :=
    declaredPerm.append (reordered.woods.flatMap_right _)
  have recipesPerm : spec.allRecipes.Perm other.allRecipes :=
    (reordered.woods.flatMap_right _).append (reordered.recipes.map _)
  have knownPerm : (spec.knownIds items declared).Perm (other.knownIds otherItems otherDeclared) :=
    (itemsPerm.map _).append (blocksPerm.map _)
  have tagsPerm : spec.tagNames.Perm other.tagNames := reordered.woods.map _
  have otherOrder : other.Expands otherItems otherDeclared :=
    { modId := reordered.modId ▸ order.modId
      expandsItems := otherItemsOk
      expandsBlocks := otherDeclaredOk
      woods := fun wood isWood => order.woods wood (reordered.woods.mem_iff.2 isWood)
      different := knownPerm.nodup_iff.1 order.different
      recipes := fun recipe isRecipe => by
        rw [← reordered.modId, ← Recipe.check_congr (fun _ => knownPerm.mem_iff)
          (fun _ => tagsPerm.mem_iff)]
        exact order.recipes recipe (recipesPerm.mem_iff.2 isRecipe)
      differentRecipes := (recipesPerm.map _).nodup_iff.1 order.differentRecipes }
  exact ⟨_, expand_eq_ok.2 ⟨otherItems, otherDeclared, otherOrder, rfl⟩,
    { modId := reordered.modId
      items := itemsPerm
      blocks := blocksPerm
      families := reordered.woods.map _
      recipes := recipesPerm }⟩

end Specification

/-! ## Asset files -/

namespace Catalog

namespace Reordered

variable {catalog other : Catalog}

theorem item?_eq (reordered : catalog.Reordered other) (different : catalog.DifferentIds)
    (id : String) : catalog.item? id = other.item? id :=
  find?_eq_of_perm reordered.items (List.nodup_append.1 different).1 id

theorem block?_eq (reordered : catalog.Reordered other) (different : catalog.DifferentIds)
    (id : String) : catalog.block? id = other.block? id :=
  find?_eq_of_perm reordered.blocks (List.nodup_append.1 different).2.1 id

theorem mem_keys (reordered : catalog.Reordered other) (key : AssetKey) :
    key ∈ catalog.keys ↔ key ∈ other.keys := by
  simp [keys, reordered.items.mem_iff, reordered.blocks.mem_iff]

theorem keyFiles_eq (reordered : catalog.Reordered other) (different : catalog.DifferentIds)
    (sizes : TextureSizes) (key : AssetKey) :
    catalog.keyFiles sizes key = other.keyFiles sizes key := by
  simp only [keyFiles, reordered.item?_eq different, reordered.block?_eq different,
    reordered.modId]

theorem addKeys_eq (reordered : catalog.Reordered other) (different : catalog.DifferentIds)
    (sizes : TextureSizes) (done : List TreeFile) (keys : List AssetKey) :
    catalog.addKeys sizes done keys = other.addKeys sizes done keys := by
  induction keys generalizing done with
  | nil => rfl
  | cons key rest ih => simp only [addKeys, reordered.keyFiles_eq different, ih]

end Reordered

/-- Items and blocks with different ids have different keys in the file of display names. -/
theorem DifferentIds.languageKeys {catalog : Catalog} (different : catalog.DifferentIds) :
    (catalog.languageMembers.map Prod.fst).Nodup := by
  obtain ⟨itemsDifferent, blocksDifferent, -⟩ := List.nodup_append.1 different
  have injective : ∀ front : String, Function.Injective fun id => front ++ id := by
    intro front first second same
    have sameChars := congrArg String.toList same
    simp only [String.toList_append, List.append_cancel_left_eq] at sameChars
    exact String.ext sameChars
  rw [languageMembers, List.map_append, List.map_map, List.map_map]
  refine List.nodup_append.2 ⟨?_, ?_, ?_⟩
  · have keys := itemsDifferent.map (injective ("item." ++ catalog.modId ++ "."))
    rwa [List.map_map] at keys
  · have keys := blocksDifferent.map (injective ("block." ++ catalog.modId ++ "."))
    rwa [List.map_map] at keys
  · intro itemKey isItemKey blockKey isBlockKey same
    obtain ⟨item, -, rfl⟩ := List.mem_map.1 isItemKey
    obtain ⟨block, -, rfl⟩ := List.mem_map.1 isBlockKey
    have sameChars := congrArg String.toList same
    simp [String.append_assoc] at sameChars

namespace Reordered

variable {catalog other : Catalog}

theorem languageFile_eq (reordered : catalog.Reordered other) (different : catalog.DifferentIds) :
    catalog.languageFile = other.languageFile := by
  have members : catalog.languageMembers.Perm other.languageMembers := by
    rw [languageMembers, languageMembers, reordered.modId]
    exact (reordered.items.map _).append (reordered.blocks.map _)
  have sameLanguage : catalog.language = other.language :=
    Json.ofMembers_eq_of_perm members different.languageKeys
  rw [languageFile, languageFile, sameLanguage, reordered.modId]

theorem assetFiles_eq (reordered : catalog.Reordered other) (different : catalog.DifferentIds)
    (sizes : TextureSizes) :
    catalog.assetFiles sizes catalog.keys = other.assetFiles sizes other.keys := by
  simp only [assetFiles, AssetKey.ascending_congr reordered.mem_keys,
    reordered.addKeys_eq different, reordered.languageFile_eq different]

/-! ## Data files -/

theorem recipeFiles_perm (reordered : catalog.Reordered other) {folders : Folders}
    {files : List TreeFile} (written : catalog.recipeFiles folders = .ok files) :
    ∃ otherFiles, other.recipeFiles folders = .ok otherFiles ∧ files.Perm otherFiles := by
  rw [recipeFiles, reordered.modId] at written
  exact Outcome.mapM_perm written reordered.recipes

theorem lootFiles_perm (reordered : catalog.Reordered other) (folders : Folders) :
    (catalog.lootFiles folders).Perm (other.lootFiles folders) := by
  rw [lootFiles, lootFiles, reordered.modId]
  exact (reordered.blocks.filter _).map _

theorem mem_entries (reordered : catalog.Reordered other) (entry : Tag.Entry) :
    entry ∈ Tag.entries catalog ↔ entry ∈ Tag.entries other := by
  rw [Tag.entries, Tag.entries, reordered.modId]
  exact ((reordered.families.flatMap_right _).append
    (reordered.blocks.flatMap_right _)).mem_iff

theorem tagFiles_eq (reordered : catalog.Reordered other) (folders : Folders) :
    catalog.tagFiles folders = other.tagFiles folders := by
  simp only [tagFiles, Tag.tags_congr reordered.mem_entries,
    Tag.values_congr reordered.mem_entries]

theorem dataFiles_perm (reordered : catalog.Reordered other) {folders : Folders}
    {files : List TreeFile} (written : catalog.dataFiles folders = .ok files) :
    ∃ otherFiles, other.dataFiles folders = .ok otherFiles ∧ files.Perm otherFiles := by
  obtain ⟨recipes, recipesOk, rfl⟩ := Outcome.map_eq_ok.1 written
  obtain ⟨otherRecipes, otherRecipesOk, recipesPerm⟩ := reordered.recipeFiles_perm recipesOk
  refine ⟨_, Outcome.map_eq_ok.2 ⟨otherRecipes, otherRecipesOk, rfl⟩, ?_⟩
  have together : (recipes ++ catalog.lootFiles folders ++ catalog.tagFiles folders).Perm
      (otherRecipes ++ other.lootFiles folders ++ other.tagFiles folders) :=
    (recipesPerm.append (reordered.lootFiles_perm folders)).append
      (List.Perm.of_eq (reordered.tagFiles_eq folders))
  exact (TreeFile.sort_perm _).trans (together.trans (TreeFile.sort_perm _).symm)

end Reordered

end Catalog

/-! ## Plans and builds -/

namespace Plan

/-- The files of a plan are the asset files and the data files, whose paths are different. -/
theorem filesOf_eq_ok {catalog : Catalog} {settings : Settings} {files : List TreeFile} :
    filesOf catalog settings = .ok files ↔
      ∃ assets data, catalog.assetFiles settings.sizes catalog.keys = .ok assets ∧
        catalog.dataFiles settings.folders = .ok data ∧
        ((assets ++ data).map TreeFile.path).Nodup ∧ files = TreeFile.sort (assets ++ data) := by
  have different : ∀ files : List TreeFile,
      firstRepeated? [] ((TreeFile.sort files).map TreeFile.path) = none ↔
        (files.map TreeFile.path).Nodup := by
    intro files
    rw [firstRepeated?_eq_none, ((TreeFile.sort_perm files).map TreeFile.path).nodup_iff]
    simp
  constructor
  · intro planned
    rw [filesOf] at planned
    obtain ⟨assets, assetsOk, planned⟩ := Outcome.bind_eq_ok.1 planned
    obtain ⟨data, dataOk, planned⟩ := Outcome.bind_eq_ok.1 planned
    dsimp only at planned
    split at planned
    · cases planned
    · next notRepeated =>
      cases planned
      exact ⟨assets, data, Outcome.mapError_eq_ok.1 assetsOk, Outcome.mapError_eq_ok.1 dataOk,
        (different _).1 notRepeated, rfl⟩
  · rintro ⟨assets, data, assetsOk, dataOk, notRepeated, rfl⟩
    rw [filesOf, Outcome.mapError_eq_ok.2 assetsOk, Outcome.mapError_eq_ok.2 dataOk]
    simp [bind, Except.bind, (different _).2 notRepeated, pure, Except.pure]

/-- Assets and data whose paths are different can be planned, whatever their order is. -/
theorem exists_filesOf {catalog : Catalog} {settings : Settings} {assets data : List TreeFile}
    {property : List TreeFile → Prop}
    (assetsOk : catalog.assetFiles settings.sizes catalog.keys = .ok (TreeFile.sort assets))
    (dataOk : catalog.dataFiles settings.folders = .ok (TreeFile.sort data))
    (different : ((assets ++ data).map TreeFile.path).Nodup) (holds : property (assets ++ data)) :
    ∃ files unsorted, filesOf catalog settings = .ok files ∧ files.Perm unsorted ∧
      property unsorted := by
  have reordered := (TreeFile.sort_perm assets).append (TreeFile.sort_perm data)
  exact ⟨_, _, filesOf_eq_ok.2
    ⟨_, _, assetsOk, dataOk, (reordered.map TreeFile.path).nodup_iff.2 different, rfl⟩,
    (TreeFile.sort_perm _).trans reordered, holds⟩

theorem ofSpecification_eq_ok {spec : Specification} {settings : Settings} {plan : Plan} :
    ofSpecification spec settings = .ok plan ↔
      spec.expand = .ok plan.catalog ∧ filesOf plan.catalog settings = .ok plan.files := by
  obtain ⟨catalog, files⟩ := plan
  constructor
  · intro planned
    obtain ⟨_, expanded, planned⟩ := Outcome.bind_eq_ok.1 planned
    obtain ⟨_, filed, planned⟩ := Outcome.bind_eq_ok.1 planned
    cases planned
    exact ⟨Outcome.mapError_eq_ok.1 expanded, filed⟩
  · rintro ⟨expanded, filed⟩
    simp [ofSpecification, Outcome.mapError_eq_ok.2 expanded, filed, bind, Except.bind, pure,
      Except.pure]

theorem filesOf_reordered {catalog other : Catalog} (reordered : catalog.Reordered other)
    (different : catalog.DifferentIds) {settings : Settings} {files : List TreeFile}
    (planned : filesOf catalog settings = .ok files) : filesOf other settings = .ok files := by
  obtain ⟨assets, data, assetsOk, dataOk, notRepeated, rfl⟩ := filesOf_eq_ok.1 planned
  obtain ⟨otherData, otherDataOk, dataPerm⟩ := reordered.dataFiles_perm dataOk
  have together : (assets ++ data).Perm (assets ++ otherData) := dataPerm.append_left assets
  refine filesOf_eq_ok.2 ⟨assets, otherData, ?_, otherDataOk, ?_, ?_⟩
  · rw [← reordered.assetFiles_eq different, assetsOk]
  · exact (together.map TreeFile.path).nodup_iff.1 notRepeated
  · exact TreeFile.sort_eq_of_perm together notRepeated

theorem ofSpecification_reordered {spec other : Specification} (reordered : spec.Reordered other)
    {settings : Settings} {plan : Plan} (planned : ofSpecification spec settings = .ok plan) :
    ∃ otherPlan, ofSpecification other settings = .ok otherPlan ∧
      otherPlan.files = plan.files ∧ otherPlan.catalog.modId = plan.catalog.modId := by
  obtain ⟨expanded, filed⟩ := ofSpecification_eq_ok.1 planned
  obtain ⟨otherCatalog, otherExpanded, catalogs⟩ := reordered.expand expanded
  have otherFiled :=
    filesOf_reordered catalogs (Specification.differentIds_of_expand expanded) filed
  exact ⟨⟨otherCatalog, plan.files⟩, ofSpecification_eq_ok.2 ⟨otherExpanded, otherFiled⟩, rfl,
    catalogs.modId.symm⟩

end Plan

namespace Build

theorem ofPlan_congr (compress : List UInt8 → List UInt8) {plan other : Plan}
    (files : other.files = plan.files) (modId : other.catalog.modId = plan.catalog.modId)
    (settings : Settings) (source : AssetSource) :
    (ofPlan compress other settings source).map (fun build => (build.files, build.manifest)) =
      (ofPlan compress plan settings source).map (fun build => (build.files, build.manifest)) := by
  simp only [ofPlan, files, modId]
  split <;> rfl

theorem ofSpecification_eq_ofPlan {compress : List UInt8 → List UInt8} {spec : Specification}
    {settings : Settings} {plan : Plan} (planned : Plan.ofSpecification spec settings = .ok plan)
    (source : AssetSource) :
    ofSpecification compress spec settings source = ofPlan compress plan settings source := by
  rw [ofSpecification, planned]
  rfl

/-- If a specification can be planned, it can be planned with its declarations in any other order,
and then has the same files. Building it gives the same files and the same manifest, with its
counts and hashes, or fails in the same way. -/
theorem reordered_declarations {spec other : Specification} (reordered : spec.Reordered other)
    (settings : Settings) {plan : Plan}
    (planned : Plan.ofSpecification spec settings = .ok plan) :
    (∃ otherPlan, Plan.ofSpecification other settings = .ok otherPlan ∧
      otherPlan.files = plan.files) ∧
    ∀ (compress : List UInt8 → List UInt8) (source : AssetSource),
      (ofSpecification compress other settings source).map
          (fun build => (build.files, build.manifest)) =
        (ofSpecification compress spec settings source).map
          (fun build => (build.files, build.manifest)) := by
  obtain ⟨otherPlan, otherPlanned, files, modId⟩ :=
    Plan.ofSpecification_reordered reordered planned
  refine ⟨⟨otherPlan, otherPlanned, files⟩, fun compress source => ?_⟩
  rw [ofSpecification_eq_ofPlan otherPlanned, ofSpecification_eq_ofPlan planned]
  exact ofPlan_congr compress files modId settings source

end Build

/-- A mod of two recipes that make things of the base game from a stick. -/
def Specification.ofResults (first second : String) : Specification :=
  { modId := "ab"
    recipes := [
      .shapeless { ingredients := ["minecraft:stick"], result := first },
      .shapeless { ingredients := ["minecraft:stick"], result := second }] }

/-- A mod of two recipes has the same files with its recipes in either order. -/
theorem Build.reordered_results :
    ∃ plan otherPlan,
      Plan.ofSpecification (.ofResults "minecraft:bowl" "minecraft:torch") {} = .ok plan ∧
      Plan.ofSpecification (.ofResults "minecraft:torch" "minecraft:bowl") {} = .ok otherPlan ∧
      otherPlan.files = plan.files := by
  let catalog := (Specification.ofResults "minecraft:bowl" "minecraft:torch").catalogOf [] []
  have expanded : (Specification.ofResults "minecraft:bowl" "minecraft:torch").expand =
      .ok catalog := rfl
  obtain ⟨files, filed⟩ : ∃ files, Plan.filesOf catalog {} = .ok files := by
    refine ⟨_, Plan.filesOf_eq_ok.2 ⟨_, _, rfl, rfl, ?_, rfl⟩⟩
    refine (((TreeFile.sort_perm _).append (TreeFile.sort_perm _)).map
      TreeFile.path).nodup_iff.2 ?_
    decide
  have planned : Plan.ofSpecification (.ofResults "minecraft:bowl" "minecraft:torch") {} =
      .ok ⟨catalog, files⟩ := Plan.ofSpecification_eq_ok.2 ⟨expanded, filed⟩
  have swapped : (Specification.ofResults "minecraft:bowl" "minecraft:torch").Reordered
      (.ofResults "minecraft:torch" "minecraft:bowl") :=
    { modId := rfl
      items := .refl _
      blocks := .refl _
      woods := .refl _
      recipes := .swap _ _ _ }
  obtain ⟨⟨otherPlan, otherPlanned, same⟩, -⟩ := Build.reordered_declarations swapped {} planned
  exact ⟨_, otherPlan, planned, otherPlanned, same⟩

end Blockwright
