import Blockwright.Assets.Mapping
import Blockwright.Proofs.Ascending
import Blockwright.Proofs.Outcome

/-!
# Files of assets

The asset files are those of each key and the display names, and their paths are different. Each
is of one of a few kinds.
-/

namespace Blockwright

/-! ## Kinds of files -/

/-- Whether a file is of a kind that an item has. -/
inductive Entity.IsFile (item : Entity) (modId : String) : TreeFile → Prop where
  | texture (task : TextureTask) :
      IsFile item modId (.ofTask (Path.texture modId .item item.id) task)
  | model {json : Json} (isDocument : json = item.spriteModel modId) :
      IsFile item modId (.ofText (Path.model modId .item item.id) json.pretty)

/-- The values that the documents of a block print. -/
def Block.documents (block : Block) (modId : String) : List Json :=
  (block.shape.modelFiles modId block.id).map Prod.snd ++
    [block.shape.blockState.toJson modId block.id, block.shape.itemModel modId block.id]

/-- Whether a file is of a kind that a block of a shape has. -/
inductive Block.IsFile (block : Block) (modId : String) : TreeFile → Prop where
  | face {ending : String} (isTexture : ending ∈ block.shape.textures) (task : TextureTask) :
      IsFile block modId (.ofTask (Path.texture modId .block (block.id ++ ending)) task)
  | model {template : ModelTemplate} (isModel : template ∈ block.shape.models) {json : Json}
      (isDocument : json ∈ block.documents modId) :
      IsFile block modId
        (.ofText (Path.model modId .block (block.id ++ template.ending)) json.pretty)
  | blockState {json : Json} (isDocument : json ∈ block.documents modId) :
      IsFile block modId (.ofText (Path.blockState modId block.id) json.pretty)
  | itemModel {json : Json} (isDocument : json ∈ block.documents modId) :
      IsFile block modId (.ofText (Path.model modId .item block.id) json.pretty)
  | sprite (task : TextureTask) :
      IsFile block modId (.ofTask (Path.texture modId .item block.id) task)
  | sign {location : String} (isSign : block.shape.entityTexture? modId block.id = some location)
      (task : TextureTask) : IsFile block modId (.ofTask (Location.textureFile location) task)

theorem Entity.isFile_of_mem {item : Entity} {modId : String} {sizes : TextureSizes}
    {file : TreeFile} (isFile : file ∈ item.itemFiles modId sizes) : item.IsFile modId file := by
  simp only [itemFiles, List.mem_cons, List.not_mem_nil, or_false] at isFile
  rcases isFile with rfl | rfl
  · exact .texture _
  · exact .model rfl

theorem Block.isFile_of_mem {block : Block} {modId : String} {sizes : TextureSizes}
    {file : TreeFile} (isFile : file ∈ block.assetFiles modId sizes) : block.IsFile modId file := by
  simp only [assetFiles, List.mem_append] at isFile
  rcases isFile with ((isFace | isModel) | isSprite) | isSign
  · obtain ⟨ending, isTexture, rfl⟩ := List.mem_map.1 isFace
    exact .face isTexture _
  · rcases List.mem_append.1 isModel with isModel | isOther
    · obtain ⟨_, isNamed, rfl⟩ := List.mem_map.1 isModel
      have isDocument : _ ∈ block.documents modId :=
        List.mem_append_left _ (List.mem_map.2 ⟨_, isNamed, rfl⟩)
      obtain ⟨template, isTemplate, rfl⟩ := List.mem_map.1 isNamed
      exact .model isTemplate isDocument
    · simp only [List.mem_cons, List.not_mem_nil, or_false] at isOther
      rcases isOther with rfl | rfl
      · exact .blockState (List.mem_append_right _ List.mem_cons_self)
      · exact .itemModel (List.mem_append_right _ (List.mem_cons_of_mem _ List.mem_cons_self))
  · rw [spriteFiles] at isSprite
    split at isSprite
    · rw [List.mem_singleton.1 isSprite]
      exact .sprite _
    · simp at isSprite
  · obtain ⟨location, isLocation, rfl⟩ := List.mem_map.1 isSign
    exact .sign (Option.mem_toList.1 isLocation) _

/-! ## Lists of files -/

namespace Catalog

variable {catalog : Catalog} {sizes : TextureSizes}

/-- Files are added if their paths are different from each other and from those before. -/
theorem addFiles_eq_ok {done files all : List TreeFile} :
    addFiles done files = .ok all ↔
      (files.map TreeFile.path).Nodup ∧ (∀ file ∈ files, ∀ other ∈ done, other.path ≠ file.path) ∧
        all = files.reverse ++ done := by
  induction files generalizing done with
  | nil => simp [addFiles, eq_comm]
  | cons file rest ih =>
    rw [addFiles]
    by_cases taken : ∃ other ∈ done, other.path = file.path
    · have found : done.any (fun other => other.path == file.path) = true := by
        simpa using taken
      obtain ⟨other, isDone, same⟩ := taken
      simp only [found, if_true, reduceCtorEq, false_iff]
      rintro ⟨-, new, -⟩
      exact new file List.mem_cons_self other isDone same
    · have found : done.any (fun other => other.path == file.path) = false := by
        simpa using taken
      have new : ∀ other ∈ done, other.path ≠ file.path := fun other isDone same =>
        taken ⟨other, isDone, same⟩
      simp only [found, Bool.false_eq_true, if_false, ih, List.map_cons, List.nodup_cons,
        List.mem_map, List.reverse_cons, List.append_assoc, List.singleton_append]
      constructor
      · rintro ⟨different, restNew, rfl⟩
        refine ⟨⟨?_, different⟩, ?_, rfl⟩
        · rintro ⟨later, isLater, same⟩
          exact restNew later isLater file List.mem_cons_self same.symm
        · intro added isAdded other isDone
          rcases List.mem_cons.1 isAdded with rfl | isLater
          · exact new other isDone
          · exact restNew added isLater other (List.mem_cons_of_mem _ isDone)
      · rintro ⟨⟨notRepeated, different⟩, allNew, rfl⟩
        refine ⟨different, fun added isLater other isDone => ?_, rfl⟩
        rcases List.mem_cons.1 isDone with rfl | isDone
        · exact fun same => notRepeated ⟨added, isLater, same.symm⟩
        · exact allNew added (List.mem_cons_of_mem _ isLater) other isDone

theorem addFiles_append (done first second : List TreeFile) :
    addFiles done (first ++ second) =
      (do let done ← addFiles done first; addFiles done second) := by
  induction first generalizing done with
  | nil => rfl
  | cons file rest ih =>
    rw [List.cons_append, addFiles, addFiles]
    split
    · rfl
    · exact ih (file :: done)

/-- The files of assets are added key by key if the asset of each key is there and complete. -/
theorem addKeys_eq_ok {done all : List TreeFile} {keys : List AssetKey} :
    catalog.addKeys sizes done keys = .ok all ↔
      ∃ parts, List.Forall₂ (fun key files => catalog.keyFiles sizes key = .ok files ∧
          missingPart? key.kind files = none) keys parts ∧
        addFiles done parts.flatten = .ok all := by
  induction keys generalizing done with
  | nil => simp [addKeys, addFiles]
  | cons key rest ih =>
    rw [addKeys]
    constructor
    · intro added
      obtain ⟨files, filesOk, added⟩ := Outcome.bind_eq_ok.1 added
      cases missing : missingPart? key.kind files with
      | some part =>
        simp only [missing] at added
        cases added
      | none =>
        simp only [missing] at added
        obtain ⟨middle, middleOk, added⟩ := Outcome.bind_eq_ok.1 added
        obtain ⟨parts, partsOk, added⟩ := ih.1 added
        refine ⟨files :: parts, .cons ⟨filesOk, missing⟩ partsOk, ?_⟩
        rw [List.flatten_cons, addFiles_append]
        exact Outcome.bind_eq_ok.2 ⟨middle, middleOk, added⟩
    · rintro ⟨_, _ | @⟨_, files, _, parts, ⟨filesOk, complete⟩, partsOk⟩, added⟩
      rw [List.flatten_cons, addFiles_append] at added
      obtain ⟨middle, middleOk, added⟩ := Outcome.bind_eq_ok.1 added
      refine Outcome.bind_eq_ok.2 ⟨files, filesOk, ?_⟩
      simp only [complete]
      exact Outcome.bind_eq_ok.2 ⟨middle, middleOk, ih.2 ⟨parts, partsOk, added⟩⟩

/-- The asset files are the files of the different keys and the display names, whose paths are
different. -/
theorem assetFiles_eq_ok {keys : List AssetKey} {files : List TreeFile} :
    catalog.assetFiles sizes keys = .ok files ↔
      ∃ parts, List.Forall₂ (fun key files => catalog.keyFiles sizes key = .ok files ∧
          missingPart? key.kind files = none) (AssetKey.ascending keys) parts ∧
        ((parts.flatten ++ [catalog.languageFile]).map TreeFile.path).Nodup ∧
        files = TreeFile.sort (parts.flatten ++ [catalog.languageFile]).reverse := by
  have together : ∀ parts : List (List TreeFile), ∀ all,
      (∃ done, addFiles [] parts.flatten = .ok done ∧
          addFiles done [catalog.languageFile] = .ok all) ↔
        ((parts.flatten ++ [catalog.languageFile]).map TreeFile.path).Nodup ∧
          all = (parts.flatten ++ [catalog.languageFile]).reverse := by
    intro parts all
    rw [← Outcome.bind_eq_ok, ← addFiles_append, addFiles_eq_ok]
    simp
  constructor
  · intro mapped
    obtain ⟨done, doneOk, mapped⟩ := Outcome.bind_eq_ok.1 mapped
    obtain ⟨all, allOk, mapped⟩ := Outcome.bind_eq_ok.1 mapped
    obtain ⟨parts, partsOk, added⟩ := addKeys_eq_ok.1 doneOk
    obtain ⟨different, rfl⟩ := (together parts all).1 ⟨done, added, allOk⟩
    cases mapped
    exact ⟨parts, partsOk, different, rfl⟩
  · rintro ⟨parts, partsOk, different, rfl⟩
    obtain ⟨done, added, allOk⟩ := (together parts _).2 ⟨different, rfl⟩
    exact Outcome.bind_eq_ok.2 ⟨done, addKeys_eq_ok.2 ⟨parts, partsOk, added⟩,
      Outcome.bind_eq_ok.2 ⟨_, allOk, rfl⟩⟩

/-- An asset file belongs to a key or holds the display names. -/
theorem mem_assetFiles {keys : List AssetKey} {files : List TreeFile}
    (mapped : catalog.assetFiles sizes keys = .ok files) {file : TreeFile} :
    file ∈ files ↔ file = catalog.languageFile ∨
      ∃ key ∈ keys, ∃ part, catalog.keyFiles sizes key = .ok part ∧ file ∈ part := by
  obtain ⟨parts, partsOk, -, rfl⟩ := assetFiles_eq_ok.1 mapped
  rw [TreeFile.mem_sort, List.mem_reverse, List.mem_append, List.mem_singleton, or_comm,
    List.mem_flatten]
  refine or_congr_right ⟨?_, ?_⟩
  · rintro ⟨part, isPart, isFile⟩
    obtain ⟨key, isKey, partOk, -⟩ := Outcome.exists_of_forall₂ partsOk isPart
    exact ⟨key, AssetKey.mem_ascending.1 isKey, part, partOk, isFile⟩
  · rintro ⟨key, isKey, part, partOk, isFile⟩
    obtain ⟨other, isPart, otherOk, -⟩ :=
      Outcome.exists_result_of_forall₂ partsOk (AssetKey.mem_ascending.2 isKey)
    cases partOk.symm.trans otherOk
    exact ⟨part, isPart, isFile⟩

/-- An asset file holds the display names or is of a kind that an item or a block has. -/
theorem assetFile_cases {keys : List AssetKey} {files : List TreeFile}
    (mapped : catalog.assetFiles sizes keys = .ok files) {file : TreeFile} (isFile : file ∈ files) :
    file = catalog.languageFile ∨ (∃ item ∈ catalog.items, item.IsFile catalog.modId file) ∨
      ∃ block ∈ catalog.blocks, block.IsFile catalog.modId file := by
  refine ((mem_assetFiles mapped).1 isFile).imp_right ?_
  rintro ⟨key, -, part, partOk, isPart⟩
  rw [keyFiles] at partOk
  split at partOk
  · split at partOk
    · next item found =>
      cases partOk
      exact .inl ⟨item, List.mem_of_find?_eq_some found, Entity.isFile_of_mem isPart⟩
    · cases partOk
  · split at partOk
    · next block found =>
      cases partOk
      exact .inr ⟨block, List.mem_of_find?_eq_some found, Block.isFile_of_mem isPart⟩
    · cases partOk

end Catalog

end Blockwright
