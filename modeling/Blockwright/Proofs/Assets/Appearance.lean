import Blockwright.Proofs.Assets.References
import Blockwright.Proofs.Plan.Reordering

/-!
# Assets in another look

Names, materials, colors, texture sources, wood families and texture sizes say how a mod looks. Two
mods that differ in their looks are mapped to the same paths, and to the same files apart from the
tasks of textures and the display names.
-/

namespace Blockwright

/-! ## Files that differ in their look -/

/-- Files of two mods in one place: a file of both, a texture that is made in one way or another, or
the display names of each. -/
inductive Catalog.Alike (catalog other : Catalog) : TreeFile → TreeFile → Prop where
  | same (file : TreeFile) : Alike catalog other file file
  | texture (path : String) (task otherTask : TextureTask) :
    Alike catalog other (.ofTask path task) (.ofTask path otherTask)
  | language : Alike catalog other catalog.languageFile other.languageFile

theorem Catalog.Alike.path_eq {catalog other : Catalog} (sameId : catalog.modId = other.modId)
    {file otherFile : TreeFile} (alike : catalog.Alike other file otherFile) :
    file.path = otherFile.path := by
  cases alike with
  | same => rfl
  | texture => rfl
  | language => simp [languageFile, TreeFile.ofText, sameId]

/-- Whether two mods have the same assets, whatever these look like: the same items, and blocks of
the same shapes. -/
structure Catalog.SameAssets (catalog other : Catalog) : Prop where
  modId : catalog.modId = other.modId
  items : ∀ id, id ∈ catalog.items.map Entity.id ↔ id ∈ other.items.map Entity.id
  /-- Each id stands for blocks of one shape. -/
  blocks : ∀ id, (catalog.block? id).map Block.shape = (other.block? id).map Block.shape

namespace Catalog

variable {catalog other : Catalog}

/-! ## Mods with the same assets -/

theorem isSome_item? (catalog : Catalog) (id : String) :
    (catalog.item? id).isSome = true ↔ id ∈ catalog.items.map Entity.id := by
  simp [item?]

theorem map_shape_block? (catalog : Catalog) (id : String) :
    (catalog.block? id).map Block.shape =
      ((catalog.blocks.map fun block => (block.id, block.shape)).find? fun pair =>
        pair.1 == id).map Prod.snd := by
  rw [block?, List.find?_map, Option.map_map]
  rfl

namespace SameAssets

theorem of_map_eq (modId : catalog.modId = other.modId)
    (items : catalog.items.map Entity.id = other.items.map Entity.id)
    (blocks : (catalog.blocks.map fun block => (block.id, block.shape)) =
      other.blocks.map fun block => (block.id, block.shape)) : catalog.SameAssets other where
  modId := modId
  items id := by rw [items]
  blocks id := by rw [map_shape_block?, map_shape_block?, blocks]

/-- Mods with different ids that declare the same ids and shapes have the same assets. -/
theorem of_mem_iff (different : catalog.DifferentIds) (otherDifferent : other.DifferentIds)
    (modId : catalog.modId = other.modId)
    (items : ∀ id, id ∈ catalog.items.map Entity.id ↔ id ∈ other.items.map Entity.id)
    (blocks : ∀ pair, (pair ∈ catalog.blocks.map fun block => (block.id, block.shape)) ↔
      pair ∈ other.blocks.map fun block => (block.id, block.shape)) :
    catalog.SameAssets other where
  modId := modId
  items := items
  blocks id := by
    have pairsDiffer : ∀ {mod : Catalog}, mod.DifferentIds →
        ((mod.blocks.map fun block => (block.id, block.shape)).map Prod.fst).Nodup := by
      intro mod different
      rw [List.map_map]
      exact (List.nodup_append.1 different).2.1
    have reordered := (List.perm_ext_iff_of_nodup (pairsDiffer different).of_map
      (pairsDiffer otherDifferent).of_map).2 blocks
    rw [map_shape_block?, map_shape_block?, find?_eq_of_perm reordered (pairsDiffer different)]

end SameAssets

/-! ## Files of a key -/

theorem alike_itemFiles {item otherItem : Entity} (sameId : item.id = otherItem.id)
    (modId : String) (sizes otherSizes : TextureSizes) :
    List.Forall₂ (catalog.Alike other) (item.itemFiles modId sizes)
      (otherItem.itemFiles modId otherSizes) := by
  rw [Entity.itemFiles, Entity.itemFiles, Entity.spriteModel, Entity.spriteModel, sameId]
  exact .cons (.texture _ _ _) (.cons (.same _) .nil)

theorem alike_blockFiles {block otherBlock : Block} (sameId : block.id = otherBlock.id)
    (sameShape : block.shape = otherBlock.shape) (modId : String)
    (sizes otherSizes : TextureSizes) :
    List.Forall₂ (catalog.Alike other) (block.assetFiles modId sizes)
      (otherBlock.assetFiles modId otherSizes) := by
  have faces : List.Forall₂ (catalog.Alike other) (block.faceFiles modId sizes)
      (otherBlock.faceFiles modId otherSizes) := by
    rw [Block.faceFiles, Block.faceFiles, sameId, sameShape, List.forall₂_map_left_iff,
      List.forall₂_map_right_iff]
    exact List.forall₂_same.2 fun ending _ => .texture _ _ _
  have models : List.Forall₂ (catalog.Alike other) (block.modelFiles modId)
      (otherBlock.modelFiles modId) := by
    rw [Block.modelFiles, Block.modelFiles, sameId, sameShape]
    exact List.forall₂_same.2 fun file _ => .same file
  have sprites : List.Forall₂ (catalog.Alike other) (block.spriteFiles modId sizes)
      (otherBlock.spriteFiles modId otherSizes) := by
    rw [Block.spriteFiles, Block.spriteFiles, sameId, sameShape]
    split
    · exact .cons (.texture _ _ _) .nil
    · exact .nil
  have signs : List.Forall₂ (catalog.Alike other) (block.signFiles modId)
      (otherBlock.signFiles modId) := by
    rw [Block.signFiles, Block.signFiles, sameId, sameShape, List.forall₂_map_left_iff,
      List.forall₂_map_right_iff]
    exact List.forall₂_same.2 fun location _ => .texture _ _ _
  exact List.rel_append (List.rel_append (List.rel_append faces models) sprites) signs

/-! ## Files of several keys -/

theorem missingPart?_congr {kind : AssetKind} {files otherFiles : List TreeFile}
    (each : List.Forall₂ (catalog.Alike other) files otherFiles)
    (modId : catalog.modId = other.modId) :
    missingPart? kind files = missingPart? kind otherFiles := by
  have sameTest : ∀ part, (files.any fun file => isPart file part) =
      otherFiles.any fun file => isPart file part := by
    refine fun part => Outcome.any_eq_of_forall₂ each fun file otherFile alike => ?_
    cases part <;> simp only [isPart, TreeFile.isTexture, alike.path_eq modId]
  simp only [missingPart?, sameTest]

theorem related_addFiles (modId : catalog.modId = other.modId) {done otherDone : List TreeFile}
    (doneAlike : List.Forall₂ (catalog.Alike other) done otherDone)
    {files otherFiles : List TreeFile}
    (each : List.Forall₂ (catalog.Alike other) files otherFiles) :
    Outcome.Related (List.Forall₂ (catalog.Alike other)) (addFiles done files)
      (addFiles otherDone otherFiles) := by
  induction each generalizing done otherDone with
  | nil => exact .ok doneAlike
  | @cons file otherFile _ _ head _ ih =>
    have sameTaken : (done.any fun before => before.path == file.path) =
        otherDone.any fun before => before.path == otherFile.path := by
      refine Outcome.any_eq_of_forall₂ doneAlike fun before otherBefore alike => ?_
      rw [alike.path_eq modId, head.path_eq modId]
    rw [addFiles, addFiles, sameTaken]
    split
    · rw [head.path_eq modId]
      exact .error _
    · exact ih (.cons head doneAlike)

namespace SameAssets

variable (same : catalog.SameAssets other) (sizes otherSizes : TextureSizes)

include same

theorem related_keyFiles (key : AssetKey) :
    Outcome.Related (List.Forall₂ (catalog.Alike other)) (catalog.keyFiles sizes key)
      (other.keyFiles otherSizes key) := by
  obtain ⟨kind, id⟩ := key
  cases kind with
  | item =>
    have sameFound : (catalog.item? id).isSome = true ↔ (other.item? id).isSome = true := by
      rw [isSome_item?, isSome_item?, same.items]
    cases found : catalog.item? id with
    | none =>
      have otherFound : other.item? id = none := by simpa [found] using sameFound
      simp only [keyFiles, found, otherFound]
      exact .error _
    | some item =>
      obtain ⟨otherItem, otherFound⟩ : ∃ otherItem, other.item? id = some otherItem := by
        simpa [found, Option.isSome_iff_exists] using sameFound
      have itemId : item.id = id := by simpa using List.find?_some found
      have otherId : otherItem.id = id := by simpa using List.find?_some otherFound
      simp only [keyFiles, found, otherFound, ← same.modId]
      exact .ok (alike_itemFiles (itemId.trans otherId.symm) catalog.modId sizes otherSizes)
  | block =>
    have sameFound := same.blocks id
    cases found : catalog.block? id with
    | none =>
      have otherFound : other.block? id = none := by simpa [found] using sameFound
      simp only [keyFiles, found, otherFound]
      exact .error _
    | some block =>
      rw [found] at sameFound
      obtain ⟨otherBlock, otherFound, sameShape⟩ := Option.map_eq_some_iff.1 sameFound.symm
      have blockId : block.id = id := by simpa using List.find?_some found
      have otherId : otherBlock.id = id := by simpa using List.find?_some otherFound
      simp only [keyFiles, found, otherFound, ← same.modId]
      exact .ok (alike_blockFiles (blockId.trans otherId.symm) sameShape.symm catalog.modId sizes
        otherSizes)

theorem related_addKeys {done otherDone : List TreeFile}
    (doneAlike : List.Forall₂ (catalog.Alike other) done otherDone) (keys : List AssetKey) :
    Outcome.Related (List.Forall₂ (catalog.Alike other)) (catalog.addKeys sizes done keys)
      (other.addKeys otherSizes otherDone keys) := by
  induction keys generalizing done otherDone with
  | nil => exact .ok doneAlike
  | cons key rest ih =>
    rw [addKeys, addKeys]
    refine (same.related_keyFiles sizes otherSizes key).bind fun files otherFiles each => ?_
    rw [missingPart?_congr each same.modId]
    cases missing : missingPart? key.kind otherFiles with
    | some part => exact .error _
    | none => exact (related_addFiles same.modId doneAlike each).bind fun _ _ => ih

/-- Mapping the assets of one mod or the other is the same error or leads to files that differ in
their look. -/
theorem related_assetFiles (keys : List AssetKey) :
    Outcome.Related (List.Forall₂ (catalog.Alike other)) (catalog.assetFiles sizes keys)
      (other.assetFiles otherSizes keys) := by
  refine (same.related_addKeys sizes otherSizes .nil _).bind fun done otherDone doneAlike => ?_
  refine (related_addFiles same.modId doneAlike (.cons .language .nil)).bind
    fun all otherAll each => ?_
  exact .ok (TreeFile.forall₂_sort each fun _ _ alike => alike.path_eq same.modId)

end SameAssets

/-- How a mod looks never decides which files it has. For two mods with the same id, the same ids of
items and blocks, and the same shapes of blocks, and for all sizes of textures and keys, mapping
fails with the same error or succeeds for both; the files have the same paths, and what they hold is
the same apart from textures that are still to be made and the display names. -/
theorem assetFiles_sameAssets (same : catalog.SameAssets other) (sizes otherSizes : TextureSizes)
    (keys : List AssetKey) :
    ((∃ files, catalog.assetFiles sizes keys = .ok files) ↔
        ∃ otherFiles, other.assetFiles otherSizes keys = .ok otherFiles) ∧
      (∀ error, catalog.assetFiles sizes keys = .error error ↔
        other.assetFiles otherSizes keys = .error error) ∧
      ∀ files otherFiles, catalog.assetFiles sizes keys = .ok files →
        other.assetFiles otherSizes keys = .ok otherFiles →
        files.map TreeFile.path = otherFiles.map TreeFile.path ∧
          List.Forall₂ (catalog.Alike other) files otherFiles := by
  have related := same.related_assetFiles sizes otherSizes keys
  refine ⟨related.isOk_iff, related.error_iff, fun files otherFiles mapped otherMapped => ?_⟩
  have each := related.of_ok mapped otherMapped
  exact ⟨Outcome.map_eq_map_of_forall₂ each fun _ _ alike => alike.path_eq same.modId, each⟩

end Catalog

/-- The mod of an item and a slab with another name, another color and the look of stone. -/
def Specification.ofHeart (modId : String) : Specification :=
  { modId
    items := [{ id := "ruby", displayName := some "Heart", color := some "#ff0000" }]
    blocks := [{ entity := { id := "ruby_slab", template := some "stone_slab" } }] }

/-- An item and a slab have the same files in small and large and under another name. -/
theorem Catalog.assetFiles_sameAssets_heart :
    ∃ catalog other files otherFiles, (Specification.ofGem "ab").expand = .ok catalog ∧
      (Specification.ofHeart "ab").expand = .ok other ∧
      catalog.items.map Entity.displayName ≠ other.items.map Entity.displayName ∧
      catalog.assetFiles ⟨16, 16⟩ catalog.keys = .ok files ∧
      other.assetFiles ⟨32, 64⟩ catalog.keys = .ok otherFiles ∧
      files.map TreeFile.path = otherFiles.map TreeFile.path ∧
      List.Forall₂ (catalog.Alike other) files otherFiles := by
  obtain ⟨catalog, other, expanded, otherExpanded, sameId, items, blocks, newNames, files,
      mapped⟩ :
      ∃ catalog other, (Specification.ofGem "ab").expand = .ok catalog ∧
        (Specification.ofHeart "ab").expand = .ok other ∧ catalog.modId = other.modId ∧
        catalog.items.map Entity.id = other.items.map Entity.id ∧
        (catalog.blocks.map fun block => (block.id, block.shape)) =
          (other.blocks.map fun block => (block.id, block.shape)) ∧
        catalog.items.map Entity.displayName ≠ other.items.map Entity.displayName ∧
        ∃ files, catalog.assetFiles ⟨16, 16⟩ catalog.keys = .ok files := by
    refine ⟨_, _, rfl, rfl, rfl, rfl, rfl, ?_, _, assetFiles_eq_ok.2
      ⟨[_, _], .cons ⟨rfl, rfl⟩ (.cons ⟨rfl, ?_⟩ .nil), ?_, rfl⟩⟩
    · decide
    · decide
    · decide
  obtain ⟨bothOk, -, alike⟩ := assetFiles_sameAssets (.of_map_eq sameId items blocks) ⟨16, 16⟩
    ⟨32, 64⟩ catalog.keys
  obtain ⟨otherFiles, otherMapped⟩ := bothOk.1 ⟨files, mapped⟩
  exact ⟨catalog, other, files, otherFiles, expanded, otherExpanded, newNames, mapped,
    otherMapped, alike files otherFiles mapped otherMapped⟩

end Blockwright
