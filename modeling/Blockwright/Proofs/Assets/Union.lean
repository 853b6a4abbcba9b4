import Blockwright.Proofs.Assets.References
import Blockwright.Proofs.Plan.Reordering

/-!
# Assets one by one

Each asset has its own files, whichever other assets are asked for. The files of a list of keys are
those of its different keys and the display names, and nothing is lost or overwritten: keys that are
not declared and paths that are shared are refused.
-/

namespace Blockwright

/-! ## What an asset needs -/

/-- Whether there is a texture at a path that is still to be made. -/
def HasPlaceholder (files : List TreeFile) (path : String) : Prop :=
  ∃ file ∈ files, file.path = path ∧ file.isTexture = true ∧ file.contents = .placeholder

/-- Whether there is a file at a path that holds a value. -/
def HasDocument (files : List TreeFile) (path : String) (value : Json) : Prop :=
  ∃ file ∈ files, file.path = path ∧ file.json? = some value

/-- What an item needs: its texture and its model. -/
structure Entity.HasFiles (item : Entity) (modId : String) (files : List TreeFile) : Prop where
  texture : HasPlaceholder files (Path.texture modId .item item.id)
  model : HasDocument files (Path.model modId .item item.id) (item.spriteModel modId)

/-- What a block needs: the textures and models of its shape, its block state and the model of its
item. -/
structure Block.HasFiles (block : Block) (modId : String) (files : List TreeFile) : Prop where
  textures : ∀ ending ∈ block.shape.textures,
    HasPlaceholder files (Path.texture modId .block (block.id ++ ending))
  models : ∀ template ∈ block.shape.models,
    HasDocument files (Path.model modId .block (block.id ++ template.ending))
      (template.toJson modId block.id)
  blockState : HasDocument files (Path.blockState modId block.id)
    (block.shape.blockState.toJson modId block.id)
  itemModel : HasDocument files (Path.model modId .item block.id)
    (block.shape.itemModel modId block.id)
  sprite : block.shape.itemForm = .flat → HasPlaceholder files (Path.texture modId .item block.id)
  sign : ∀ location, block.shape.entityTexture? modId block.id = some location →
    HasPlaceholder files (Location.textureFile location)

/-- Whether the asset with a key is declared and has all that it needs among files. -/
inductive Catalog.HasAsset (catalog : Catalog) (files : List TreeFile) : AssetKey → Prop where
  | item {item : Entity} : item ∈ catalog.items → item.HasFiles catalog.modId files →
    HasAsset catalog files { kind := .item, id := item.id }
  | block {block : Block} : block ∈ catalog.blocks → block.HasFiles catalog.modId files →
    HasAsset catalog files { kind := .block, id := block.id }

theorem hasDocument_ofText {files : List TreeFile} {path : String} {value : Json}
    (tidy : value.Tidy Json.Number.IsExact Json.Document.depthLimit)
    (isFile : TreeFile.ofText path value.pretty ∈ files) : HasDocument files path value :=
  ⟨_, isFile, rfl, TreeFile.json?_ofText tidy path⟩

theorem hasPlaceholder_ofTask {files : List TreeFile} {front : String} {task : TextureTask}
    (isFile : TreeFile.ofTask (front ++ ".png") task ∈ files) :
    HasPlaceholder files (front ++ ".png") :=
  ⟨_, isFile, rfl, TreeFile.isTexture_of_path rfl, rfl⟩

theorem Entity.hasFiles (item : Entity) (modId : String) (sizes : TextureSizes) :
    item.HasFiles modId (item.itemFiles modId sizes) where
  texture := hasPlaceholder_ofTask List.mem_cons_self
  model := hasDocument_ofText (Json.tidy_flatModel _ _) (List.mem_cons_of_mem _ List.mem_cons_self)

theorem Shape.tidy_itemModel (shape : Shape) (modId id : String) :
    (shape.itemModel modId id).Tidy Json.Number.IsExact Json.Document.depthLimit := by
  rw [itemModel]
  split
  · exact Json.tidy_single (by decide) (Json.tidy_text _)
  · exact Json.tidy_flatModel _ _

theorem Block.hasFiles (block : Block) (modId : String) (sizes : TextureSizes) :
    block.HasFiles modId (block.assetFiles modId sizes) where
  textures ending isEnding := by
    obtain ⟨task, isFace⟩ : ∃ task,
        TreeFile.ofTask (Path.texture modId .block (block.id ++ ending)) task ∈
          block.faceFiles modId sizes :=
      ⟨_, List.mem_map_of_mem isEnding⟩
    exact hasPlaceholder_ofTask
      (List.mem_append_left _ (List.mem_append_left _ (List.mem_append_left _ isFace)))
  models template isModel := by
    refine hasDocument_ofText (template.tidy_toJson modId block.id)
      (block.mem_assetFiles_of_model sizes (List.mem_append_left _ ?_))
    exact List.mem_map_of_mem (List.mem_map_of_mem isModel)
  blockState := by
    refine hasDocument_ofText (BlockState.tidy_toJson fun placement isPlaced =>
      (block.shape.placement_mem_models placement isPlaced).2)
      (block.mem_assetFiles_of_model sizes (List.mem_append_right _ List.mem_cons_self))
  itemModel := by
    refine hasDocument_ofText (block.shape.tidy_itemModel modId block.id)
      (block.mem_assetFiles_of_model sizes (List.mem_append_right _ ?_))
    exact List.mem_cons_of_mem _ List.mem_cons_self
  sprite flat := by
    obtain ⟨task, isSprite⟩ : ∃ task, TreeFile.ofTask (Path.texture modId .item block.id) task ∈
        block.spriteFiles modId sizes := by
      rw [spriteFiles, if_pos flat]
      exact ⟨_, List.mem_cons_self⟩
    exact hasPlaceholder_ofTask (List.mem_append_left _ (List.mem_append_right _ isSprite))
  sign location isSkin := by
    obtain ⟨task, isSign⟩ : ∃ task, TreeFile.ofTask (Location.textureFile location) task ∈
        block.signFiles modId := by
      rw [signFiles, isSkin]
      exact ⟨_, List.mem_cons_self⟩
    exact hasPlaceholder_ofTask (List.mem_append_right _ isSign)

theorem Shape.exists_parts (shape : Shape) :
    (∃ ending, ending ∈ shape.textures) ∧ ∃ template, template ∈ shape.models := by
  cases shape <;> exact ⟨⟨_, List.mem_cons_self⟩, _, List.mem_cons_self⟩

theorem exists_find?_of_mem {α : Type} (key : α → String) {value : α} {values : List α}
    (isValue : value ∈ values) :
    ∃ found ∈ values, key found = key value ∧
      values.find? (fun other => key other == key value) = some found := by
  obtain ⟨found, isFound⟩ : ∃ found,
      values.find? (fun other => key other == key value) = some found :=
    Option.isSome_iff_exists.1 (List.find?_isSome.2 ⟨value, isValue, beq_self_eq_true _⟩)
  exact ⟨found, List.mem_of_find?_eq_some isFound, by simpa using List.find?_some isFound, isFound⟩

theorem duplicate_of_perm {path : String} {first second : List String}
    (twice : List.Duplicate path first) (reordered : first.Perm second) :
    List.Duplicate path second := by
  rw [List.duplicate_iff_two_le_count] at twice ⊢
  rwa [← reordered.count_eq]

/-! ## No part is missing -/

theorem Text.occurs_iff {pattern text : List Char} :
    occurs pattern text = true ↔ pattern <:+: text := by
  induction text with
  | nil => simp [occurs]
  | cons c rest ih =>
    rw [occurs, Bool.or_eq_true, List.isPrefixOf_iff_prefix, ih, List.infix_cons_iff]

theorem Path.occurs_model (modId name : String) (kind : AssetKind) :
    Text.occurs ("/models/" ++ kind.name ++ "/").toList (model modId kind name).toList = true := by
  refine Text.occurs_iff.2 ⟨("assets/" ++ modId).toList, (name ++ ".json").toList, ?_⟩
  simp [model]

theorem Path.occurs_blockState (modId id : String) :
    Text.occurs "/blockstates/".toList (blockState modId id).toList = true := by
  refine Text.occurs_iff.2 ⟨("assets/" ++ modId).toList, (id ++ ".json").toList, ?_⟩
  simp [blockState]

namespace Catalog

theorem missingPart?_eq_none {kind : AssetKind} {files : List TreeFile} :
    missingPart? kind files = none ↔
      ∀ part ∈ requiredParts kind, ∃ file ∈ files, isPart file part = true := by
  simp [missingPart?]

theorem exists_itemModel {files : List TreeFile} {modId id : String} {value : Json}
    (there : HasDocument files (Path.model modId .item id) value) :
    ∃ file ∈ files, isPart file .itemModel = true := by
  obtain ⟨file, isFile, path, -⟩ := there
  refine ⟨file, isFile, ?_⟩
  rw [isPart, path]
  exact Path.occurs_model modId id .item

theorem HasAsset.complete {catalog : Catalog} {files : List TreeFile} {key : AssetKey}
    (there : catalog.HasAsset files key) : missingPart? key.kind files = none := by
  refine missingPart?_eq_none.2 fun part isRequired => ?_
  cases there with
  | item _ has =>
    simp only [requiredParts, List.mem_cons, List.not_mem_nil, or_false] at isRequired
    rcases isRequired with rfl | rfl
    · obtain ⟨file, isFile, -, isTexture, -⟩ := has.texture
      exact ⟨file, isFile, isTexture⟩
    · exact exists_itemModel has.model
  | @block block _ has =>
    obtain ⟨⟨ending, isEnding⟩, template, isModel⟩ := block.shape.exists_parts
    simp only [requiredParts, List.mem_cons, List.not_mem_nil, or_false] at isRequired
    rcases isRequired with rfl | rfl | rfl | rfl
    · obtain ⟨file, isFile, -, isTexture, -⟩ := has.textures ending isEnding
      exact ⟨file, isFile, isTexture⟩
    · exact exists_itemModel has.itemModel
    · obtain ⟨file, isFile, path, -⟩ := has.models template isModel
      refine ⟨file, isFile, ?_⟩
      rw [isPart, path]
      exact Path.occurs_model _ _ .block
    · obtain ⟨file, isFile, path, -⟩ := has.blockState
      refine ⟨file, isFile, ?_⟩
      rw [isPart, path]
      exact Path.occurs_blockState _ _

/-! ## Files of one key -/

variable {catalog : Catalog} {sizes : TextureSizes}

/-- Files of the asset with a key; none if it is not declared. -/
def ownFiles (catalog : Catalog) (sizes : TextureSizes) (key : AssetKey) : List TreeFile :=
  (catalog.keyFiles sizes key).toOption.getD []

theorem keyFiles_of_mem (sizes : TextureSizes) {key : AssetKey} (isKey : key ∈ catalog.keys) :
    catalog.keyFiles sizes key = .ok (catalog.ownFiles sizes key) ∧
      catalog.HasAsset (catalog.ownFiles sizes key) key := by
  obtain ⟨files, filesOk, there⟩ :
      ∃ files, catalog.keyFiles sizes key = .ok files ∧ catalog.HasAsset files key := by
    rcases List.mem_append.1 isKey with isItemKey | isBlockKey
    · obtain ⟨item, isItem, rfl⟩ := List.mem_map.1 isItemKey
      obtain ⟨found, isFound, sameId, foundOk⟩ := exists_find?_of_mem Entity.id isItem
      refine ⟨_, by rw [keyFiles, item?, foundOk], ?_⟩
      exact sameId ▸ .item isFound (found.hasFiles catalog.modId sizes)
    · obtain ⟨block, isBlock, rfl⟩ := List.mem_map.1 isBlockKey
      obtain ⟨found, isFound, sameId, foundOk⟩ := exists_find?_of_mem Block.id isBlock
      refine ⟨_, by rw [keyFiles, block?, foundOk], ?_⟩
      exact sameId ▸ .block isFound (found.hasFiles catalog.modId sizes)
  have own : catalog.ownFiles sizes key = files := by
    rw [ownFiles, filesOk]
    rfl
  exact ⟨own ▸ filesOk, own ▸ there⟩

theorem keyFiles_of_not_mem {key : AssetKey} (noKey : key ∉ catalog.keys) :
    catalog.keyFiles sizes key = .error (.unknownKey key) := by
  obtain ⟨kind, id⟩ := key
  cases kind with
  | item =>
    have missing : catalog.item? id = none := by
      refine List.find?_eq_none.2 fun item isItem sameId => noKey (List.mem_append_left _ ?_)
      exact List.mem_map.2 ⟨item, isItem, by rw [beq_iff_eq.1 sameId]⟩
    simp only [keyFiles, missing]
  | block =>
    have missing : catalog.block? id = none := by
      refine List.find?_eq_none.2 fun block isBlock sameId => noKey (List.mem_append_right _ ?_)
      exact List.mem_map.2 ⟨block, isBlock, by rw [beq_iff_eq.1 sameId]⟩
    simp only [keyFiles, missing]

/-! ## Files of several keys -/

theorem addFiles_eq_error {done files : List TreeFile} {error : MapError}
    (failed : addFiles done files = .error error) :
    ∃ path, error = .pathCollision path ∧
      List.Duplicate path ((done ++ files).map TreeFile.path) := by
  induction files generalizing done with
  | nil => cases failed
  | cons file rest ih =>
    rw [addFiles] at failed
    split at failed
    · next taken =>
      cases failed
      obtain ⟨other, isDone, samePath⟩ := List.any_eq_true.1 taken
      refine ⟨file.path, rfl, List.duplicate_iff_two_le_count.2 ?_⟩
      rw [List.map_append, List.count_append]
      have before : file.path ∈ done.map TreeFile.path :=
        List.mem_map.2 ⟨other, isDone, beq_iff_eq.1 samePath⟩
      have here : file.path ∈ (file :: rest).map TreeFile.path := List.mem_cons_self
      exact Nat.add_le_add (List.count_pos_iff.2 before) (List.count_pos_iff.2 here)
    · obtain ⟨path, collision, twice⟩ := ih failed
      have moved : (file :: done ++ rest).Perm (done ++ file :: rest) := List.perm_middle.symm
      exact ⟨path, collision, duplicate_of_perm twice (moved.map TreeFile.path)⟩

theorem addKeys_cons {done : List TreeFile} {key : AssetKey} {rest : List AssetKey}
    (isKey : key ∈ catalog.keys) :
    catalog.addKeys sizes done (key :: rest) =
      (do
        let done ← addFiles done (catalog.ownFiles sizes key)
        catalog.addKeys sizes done rest) := by
  obtain ⟨filesOk, there⟩ := keyFiles_of_mem sizes isKey
  simp [addKeys, filesOk, there.complete, bind, Except.bind]

/-- Only a key that is not declared and a path that is there twice are refused. -/
theorem addKeys_eq_error {done : List TreeFile} {keys : List AssetKey} {error : MapError}
    (failed : catalog.addKeys sizes done keys = .error error) :
    (∃ key ∈ keys, key ∉ catalog.keys ∧ error = .unknownKey key) ∨
      ∃ path, error = .pathCollision path ∧ List.Duplicate path
        ((done ++ keys.flatMap (catalog.ownFiles sizes)).map TreeFile.path) := by
  induction keys generalizing done with
  | nil => cases failed
  | cons key rest ih =>
    by_cases isKey : key ∈ catalog.keys
    · rw [addKeys_cons isKey] at failed
      cases added : addFiles done (catalog.ownFiles sizes key) with
      | error fault =>
        rw [added] at failed
        cases failed
        obtain ⟨path, collision, twice⟩ := addFiles_eq_error added
        refine .inr ⟨path, collision, twice.mono_sublist (List.Sublist.map _ ?_)⟩
        rw [List.flatMap_cons, ← List.append_assoc]
        exact List.sublist_append_left _ _
      | ok all =>
        rw [added] at failed
        obtain ⟨-, -, rfl⟩ := addFiles_eq_ok.1 added
        rcases ih failed with ⟨other, isOther, unknown⟩ | ⟨path, collision, twice⟩
        · exact .inl ⟨other, List.mem_cons_of_mem _ isOther, unknown⟩
        · refine .inr ⟨path, collision, duplicate_of_perm twice (List.Perm.map _ ?_)⟩
          rw [List.flatMap_cons, ← List.append_assoc]
          exact ((List.reverse_perm _).append_right done).trans List.perm_append_comm
            |>.append_right _
    · have unknown : catalog.addKeys sizes done (key :: rest) = .error (.unknownKey key) := by
        rw [addKeys, keyFiles_of_not_mem isKey]
        rfl
      cases unknown.symm.trans failed
      exact .inl ⟨key, List.mem_cons_self, isKey, rfl⟩

/-- The files of the different keys among those of a list, and the display names. -/
def allFiles (catalog : Catalog) (sizes : TextureSizes) (keys : List AssetKey) : List TreeFile :=
  catalog.languageFile :: keys.dedup.flatMap (catalog.ownFiles sizes)

theorem perm_allFiles (catalog : Catalog) (sizes : TextureSizes) (keys : List AssetKey) :
    ((AssetKey.ascending keys).flatMap (catalog.ownFiles sizes) ++ [catalog.languageFile]).Perm
      (catalog.allFiles sizes keys) :=
  (List.perm_append_singleton _ _).trans
    (((AssetKey.ascending_perm_dedup keys).flatMap_right _).cons _)

theorem parts_eq {keys : List AssetKey} {parts : List (List TreeFile)}
    (partsOk : List.Forall₂ (fun key files => catalog.keyFiles sizes key = .ok files ∧
      missingPart? key.kind files = none) keys parts) :
    parts = keys.map (catalog.ownFiles sizes) := by
  have own : keys.map (catalog.ownFiles sizes) = parts.map id :=
    Outcome.map_eq_map_of_forall₂ partsOk fun key files filesOk => by
      rw [ownFiles, filesOk.1]
      rfl
  rw [own, List.map_id]

/-- The asset files are all files of the different keys and the display names: the keys are
declared, the paths are different, and the files are in order. -/
theorem assetFiles_eq_ok_iff {keys : List AssetKey} {files : List TreeFile} :
    catalog.assetFiles sizes keys = .ok files ↔
      (∀ key ∈ keys, key ∈ catalog.keys) ∧
        ((catalog.allFiles sizes keys).map TreeFile.path).Nodup ∧
          files = TreeFile.sort (catalog.allFiles sizes keys) := by
  have reordered := perm_allFiles catalog sizes keys
  have sameNodup := (reordered.map TreeFile.path).nodup_iff
  rw [assetFiles_eq_ok]
  constructor
  · rintro ⟨parts, partsOk, different, rfl⟩
    obtain rfl := parts_eq partsOk
    rw [← List.flatMap_def] at different ⊢
    refine ⟨fun key isKey => ?_, sameNodup.1 different,
      TreeFile.sort_eq_of_perm ((List.reverse_perm _).trans reordered) ?_⟩
    · by_contra unknown
      obtain ⟨files, -, filesOk, -⟩ :=
        Outcome.exists_result_of_forall₂ partsOk (AssetKey.mem_ascending.2 isKey)
      rw [keyFiles_of_not_mem unknown] at filesOk
      cases filesOk
    · rw [List.map_reverse]
      exact List.nodup_reverse.2 different
  · rintro ⟨declared, different, rfl⟩
    refine ⟨(AssetKey.ascending keys).map (catalog.ownFiles sizes), ?_, ?_, ?_⟩
    · refine List.forall₂_map_right_iff.2 (List.forall₂_same.2 fun key isKey => ?_)
      obtain ⟨filesOk, there⟩ :=
        keyFiles_of_mem sizes (declared key (AssetKey.mem_ascending.1 isKey))
      exact ⟨filesOk, there.complete⟩
    · rw [← List.flatMap_def]
      exact sameNodup.2 different
    · rw [← List.flatMap_def]
      exact TreeFile.sort_eq_of_perm (reordered.symm.trans (List.reverse_perm _).symm) different

theorem assetFiles_eq_error {keys : List AssetKey} {error : MapError}
    (failed : catalog.assetFiles sizes keys = .error error) :
    (∃ key ∈ keys, key ∉ catalog.keys ∧ error = .unknownKey key) ∨
      ∃ path, error = .pathCollision path ∧
        List.Duplicate path ((catalog.allFiles sizes keys).map TreeFile.path) := by
  have reordered := perm_allFiles catalog sizes keys
  cases added : catalog.addKeys sizes [] (AssetKey.ascending keys) with
  | error fault =>
    rw [assetFiles, added] at failed
    cases failed
    rcases addKeys_eq_error added with ⟨key, isKey, unknown⟩ | ⟨path, collision, twice⟩
    · exact .inl ⟨key, AssetKey.mem_ascending.1 isKey, unknown⟩
    · refine .inr ⟨path, collision, duplicate_of_perm (twice.mono_sublist ?_)
        (reordered.map TreeFile.path)⟩
      exact List.Sublist.map _ (List.sublist_append_left _ _)
  | ok done =>
    have rest : (do let all ← addFiles done [catalog.languageFile]; return TreeFile.sort all) =
        Except.error error := by
      rwa [assetFiles, added] at failed
    obtain ⟨parts, partsOk, doneOk⟩ := addKeys_eq_ok.1 added
    obtain rfl := parts_eq partsOk
    rw [← List.flatMap_def] at doneOk
    cases last : addFiles done [catalog.languageFile] with
    | error fault =>
      rw [last] at rest
      cases rest
      have together : addFiles [] ((AssetKey.ascending keys).flatMap (catalog.ownFiles sizes)
          ++ [catalog.languageFile]) = .error error := by
        rw [addFiles_append, doneOk]
        exact last
      obtain ⟨path, collision, twice⟩ := addFiles_eq_error together
      exact .inr ⟨path, collision, duplicate_of_perm twice (reordered.map TreeFile.path)⟩
    | ok all =>
      rw [last] at rest
      cases rest

-- A cube that is named like the end of a column has its texture at the path of the end.
example : ∃ catalog, ({ modId := "ab", blocks := [{ entity := { id := "jade_pillar" } },
      { entity := { id := "jade_pillar_top" } }] } : Specification).expand = .ok catalog ∧
    catalog.assetFiles ⟨16, 16⟩ catalog.keys =
      .error (.pathCollision "assets/ab/textures/block/jade_pillar_top.png") :=
  ⟨_, rfl, rfl⟩

/-! ## Display names -/

theorem languageFile_members (different : catalog.DifferentIds) :
    ∃ members, catalog.languageFile.json? = some (.object members) ∧
      members.Perm catalog.languageMembers ∧ (members.map Prod.fst).Nodup := by
  have keysDiffer := different.languageKeys
  have sortedDiffer := (Json.ascending_sortMembers catalog.languageMembers).nodup
  refine ⟨Json.sortMembers catalog.languageMembers, ?_, ?_, sortedDiffer⟩
  · refine TreeFile.json?_ofText (Json.tidy_ofMembers (by decide) fun member isMember => ?_) _
    rcases List.mem_append.1 isMember with isItem | isBlock
    · obtain ⟨item, -, rfl⟩ := List.mem_map.1 isItem
      exact Json.tidy_text _
    · obtain ⟨block, -, rfl⟩ := List.mem_map.1 isBlock
      exact Json.tidy_text _
  · exact (List.perm_ext_iff_of_nodup sortedDiffer.of_map keysDiffer.of_map).2 fun member =>
      Json.mem_sortMembers keysDiffer

/-! ## Union -/

/-- Whether files are the display names and what each of the different keys is mapped to by
itself. -/
structure IsUnion (catalog : Catalog) (sizes : TextureSizes) (keys : List AssetKey)
    (files : List TreeFile) : Prop where
  ascending : files.Pairwise fun first second => first.path < second.path
  whole : files.Perm (catalog.allFiles sizes keys)
  /-- A key by itself is mapped to its own files and the display names. -/
  alone : ∀ key ∈ keys, ∃ alone, catalog.assetFiles sizes [key] = .ok alone ∧
    alone.Perm (catalog.languageFile :: catalog.ownFiles sizes key)
  assets : ∀ key ∈ keys, catalog.HasAsset (catalog.ownFiles sizes key) key

theorem isUnion_of_assetFiles {keys : List AssetKey} {files : List TreeFile}
    (mapped : catalog.assetFiles sizes keys = .ok files) : catalog.IsUnion sizes keys files := by
  obtain ⟨declared, different, rfl⟩ := assetFiles_eq_ok_iff.1 mapped
  have reordered := TreeFile.sort_perm (catalog.allFiles sizes keys)
  refine ⟨?_, reordered, fun key isKey => ?_, fun key isKey =>
    (keyFiles_of_mem sizes (declared key isKey)).2⟩
  · have sortedDiffer := (reordered.map TreeFile.path).nodup_iff.2 different
    exact (TreeFile.pairwise_sort _).imp₂ (fun _ _ before different =>
      String.not_le.1 fun after => different (String.le_antisymm before after))
      (List.pairwise_map.1 sortedDiffer)
  · have single : catalog.allFiles sizes [key] =
        catalog.languageFile :: catalog.ownFiles sizes key := by
      simp [allFiles]
    refine ⟨_, assetFiles_eq_ok_iff.2 ⟨?_, ?_, rfl⟩, single ▸ TreeFile.sort_perm _⟩
    · exact fun other isOther => List.mem_singleton.1 isOther ▸ declared key isKey
    · refine different.sublist (List.Sublist.map _ ?_)
      rw [single, allFiles, List.flatMap_def]
      exact (List.sublist_flatten_of_mem
        (List.mem_map_of_mem (List.mem_dedup.2 isKey))).cons_cons _

/-- Mapping assets is a disjoint union over their different keys. For a catalog of a specification,
the order and repetition of keys change neither the files nor the error; the files are the display
names and those of each key by itself, in order and with different paths; and mapping fails just for
a key that is not declared or two of these files with one path. The display names are those of all
items and blocks whatever the keys are. -/
theorem assetFiles_union {spec : Specification} (expanded : spec.expand = .ok catalog)
    (sizes : TextureSizes) (keys : List AssetKey) :
    (∀ others, (∀ key, key ∈ others ↔ key ∈ keys) →
        catalog.assetFiles sizes others = catalog.assetFiles sizes keys) ∧
      (∀ files, catalog.assetFiles sizes keys = .ok files → catalog.IsUnion sizes keys files) ∧
      ((∃ files, catalog.assetFiles sizes keys = .ok files) ↔
        (∀ key ∈ keys, key ∈ catalog.keys) ∧
          ((catalog.allFiles sizes keys).map TreeFile.path).Nodup) ∧
      (∀ error, catalog.assetFiles sizes keys = .error error →
        (∃ key ∈ keys, key ∉ catalog.keys ∧ error = .unknownKey key) ∨
          ∃ path, error = .pathCollision path ∧
            List.Duplicate path ((catalog.allFiles sizes keys).map TreeFile.path)) ∧
      ∃ members, catalog.languageFile.json? = some (.object members) ∧
        members.Perm catalog.languageMembers ∧ (members.map Prod.fst).Nodup := by
  refine ⟨fun others same => ?_, fun files => isUnion_of_assetFiles, ?_,
    fun error => assetFiles_eq_error,
    languageFile_members (Specification.differentIds_of_expand expanded)⟩
  · rw [assetFiles, AssetKey.ascending_congr same]
    rfl
  · constructor
    · rintro ⟨files, mapped⟩
      obtain ⟨declared, different, -⟩ := assetFiles_eq_ok_iff.1 mapped
      exact ⟨declared, different⟩
    · rintro ⟨declared, different⟩
      exact ⟨_, assetFiles_eq_ok_iff.2 ⟨declared, different, rfl⟩⟩

/-- Three keys of a slab and an item stand for two assets. -/
theorem assetFiles_union_gem :
    ∃ catalog files, (Specification.ofGem "ab").expand = .ok catalog ∧
      catalog.assetFiles ⟨16, 16⟩ [⟨.block, "ruby_slab"⟩, ⟨.item, "ruby"⟩, ⟨.block, "ruby_slab"⟩] =
          .ok files ∧
        catalog.IsUnion ⟨16, 16⟩
          [⟨.block, "ruby_slab"⟩, ⟨.item, "ruby"⟩, ⟨.block, "ruby_slab"⟩] files := by
  obtain ⟨catalog, expanded, declared, different⟩ :
      ∃ catalog, (Specification.ofGem "ab").expand = .ok catalog ∧
        (∀ key ∈ ([⟨.block, "ruby_slab"⟩, ⟨.item, "ruby"⟩, ⟨.block, "ruby_slab"⟩] : List AssetKey),
          key ∈ catalog.keys) ∧
        ((catalog.allFiles ⟨16, 16⟩ [⟨.block, "ruby_slab"⟩, ⟨.item, "ruby"⟩,
          ⟨.block, "ruby_slab"⟩]).map TreeFile.path).Nodup := by
    refine ⟨_, rfl, ?_, ?_⟩
    · decide
    · decide
  obtain ⟨-, union, mappedIff, -⟩ := assetFiles_union expanded ⟨16, 16⟩
    [⟨.block, "ruby_slab"⟩, ⟨.item, "ruby"⟩, ⟨.block, "ruby_slab"⟩]
  obtain ⟨files, mapped⟩ := mappedIff.2 ⟨declared, different⟩
  exact ⟨catalog, files, expanded, mapped, union files mapped⟩

end Catalog

end Blockwright
