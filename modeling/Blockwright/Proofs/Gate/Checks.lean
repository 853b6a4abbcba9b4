import Blockwright.Proofs.Data.Forms
import Blockwright.Proofs.Gate.Opened
import Blockwright.Proofs.Png.RoundTrip

/-!
# Builds pass the gate

Each check of the gate is passed by the archive of a build. Only the textures of doors may fail,
because they may come from assets of any size.
-/

namespace Blockwright

namespace Gate

/-! ## Verdicts -/

/-- Whether a verdict is reached and tells of no failure but those of one check. -/
def Only (check : GateCheck) (verdict : Verdict) : Prop :=
  ∃ found, verdict = .ok found ∧ ∀ failure ∈ found, failure.check = check

theorem only_of_passed {check : GateCheck} {verdict : Verdict} (passed : verdict = .ok none) :
    Only check verdict :=
  ⟨none, passed, by simp⟩

theorem only_fail (check : GateCheck) (path : String) (reason : GateReason) :
    Only check (fail check path reason) :=
  ⟨_, rfl, by simp⟩

theorem firstOf_cons_passed {check : Unit → Verdict} (passed : check () = .ok none)
    (rest : List (Unit → Verdict)) : firstOf (check :: rest) = firstOf rest := by
  rw [firstOf, passed]

/-- Nothing fails exactly if all checks are passed. -/
theorem firstOf_eq_passed {checks : List (Unit → Verdict)} :
    firstOf checks = .ok none ↔ ∀ check ∈ checks, check () = .ok none := by
  induction checks with
  | nil => simp [firstOf]
  | cons check rest ih =>
    rw [List.forall_mem_cons, ← ih, firstOf]
    split
    · next passed => simp [passed]
    · next failed => exact iff_of_false failed fun each => failed each.1

theorem firstOf_passed {checks : List (Unit → Verdict)}
    (each : ∀ check ∈ checks, check () = .ok none) : firstOf checks = .ok none :=
  firstOf_eq_passed.2 each

theorem firstOf_cons_of_passed {check : Unit → Verdict} {rest : List (Unit → Verdict)}
    (passed : firstOf rest = .ok none) : firstOf (check :: rest) = check () := by
  rw [firstOf]
  split
  · next first => rw [passed, first]
  · rfl

theorem firstOf_only {kind : GateCheck} {checks : List (Unit → Verdict)}
    (each : ∀ check ∈ checks, Only kind (check ())) : Only kind (firstOf checks) := by
  induction checks with
  | nil => exact only_of_passed rfl
  | cons check rest ih =>
    obtain ⟨⟨found, isFound, failures⟩, others⟩ := List.forall_mem_cons.1 each
    rw [firstOf, isFound]
    cases found with
    | none => exact ih others
    | some failure => exact ⟨some failure, rfl, failures⟩

end Gate

/-! ## Catalogs of plans -/

namespace Catalog

variable {catalog : Catalog}

theorem block?_of_mem (different : catalog.DifferentIds) {block : Block}
    (isBlock : block ∈ catalog.blocks) : catalog.block? block.id = some block := by
  rw [block?]
  cases found : catalog.blocks.find? (fun other => other.id == block.id) with
  | none =>
    have unlike := List.find?_eq_none.1 found block isBlock
    simp at unlike
  | some other =>
    have sameId : other.id = block.id := by simpa using List.find?_some found
    rw [List.inj_on_of_nodup_map (List.nodup_append.1 different).2.1
      (List.mem_of_find?_eq_some found) isBlock sameId]

/-- The gate knows the shape of every block. -/
theorem shape_ofCatalog (different : catalog.DifferentIds) (version : Version) {block : Block}
    (isBlock : block ∈ catalog.blocks) :
    (GateSettings.ofCatalog catalog version).shape block.id = block.shape := by
  have found : ∀ blocks : List Block, (blocks.map Block.id).Nodup → block ∈ blocks →
      (blocks.map fun block => (block.id, block.shape)).lookup block.id = some block.shape := by
    intro blocks different isBlock
    induction blocks with
    | nil => simp at isBlock
    | cons other rest ih =>
      obtain ⟨notRepeated, restDifferent⟩ := List.nodup_cons.1 different
      rw [List.map_cons, List.lookup_cons]
      rcases List.mem_cons.1 isBlock with rfl | isLater
      · simp
      · have otherId : (block.id == other.id) = false := by
          rw [beq_eq_false_iff_ne]
          rintro same
          exact notRepeated (same ▸ List.mem_map_of_mem isLater)
        rw [otherId]
        exact ih restDifferent isLater
  rw [GateSettings.shape, GateSettings.ofCatalog,
    found catalog.blocks (List.nodup_append.1 different).2.1 isBlock]
  rfl

end Catalog

/-- The planned texture on a face of a block. -/
def Block.face (block : Block) (modId half : String) (size : UInt32) : TreeFile :=
  .ofTask (Path.texture modId .block (block.id ++ half))
    (block.task .block block.entity.source half
      (modId ++ ":block/" ++ (block.id ++ half)) size size)

namespace Plan

variable {spec : Specification} {catalog : Catalog} {settings : Settings} {files : List TreeFile}

theorem noSlash_of_expand (expanded : spec.expand = .ok catalog) :
    '/' ∉ catalog.modId.toList := by
  obtain ⟨items, declared, order, rfl⟩ := Specification.expand_eq_ok.1 expanded
  exact Slug.not_mem_of_isValid (Slug.isValid_of_isModId order.modId) (by decide)

theorem mem_filesOf_of_block (expanded : spec.expand = .ok catalog)
    (planned : filesOf catalog settings = .ok files) {block : Block}
    (isBlock : block ∈ catalog.blocks) {file : TreeFile}
    (isFile : file ∈ block.assetFiles catalog.modId settings.sizes) : file ∈ files := by
  obtain ⟨assets, data, assetsOk, dataOk, -, rfl⟩ := filesOf_eq_ok.1 planned
  rw [TreeFile.mem_sort]
  refine List.mem_append_left _ ((Catalog.mem_assetFiles assetsOk).2 (.inr ?_))
  have found := Catalog.block?_of_mem (Specification.differentIds_of_expand expanded) isBlock
  refine ⟨⟨.block, block.id⟩, ?_, _, ?_, isFile⟩
  · exact List.mem_append_right _ (List.mem_map_of_mem isBlock)
  · rw [Catalog.keyFiles]
    simp only [found]

/-- The textures on the faces of a block are planned. -/
theorem face_mem_filesOf (expanded : spec.expand = .ok catalog)
    (planned : filesOf catalog settings = .ok files) {block : Block}
    (isBlock : block ∈ catalog.blocks) {half : String} (isHalf : half ∈ block.shape.textures) :
    block.face catalog.modId half settings.blockSize ∈ files :=
  mem_filesOf_of_block expanded planned isBlock (List.mem_append_left _ (List.mem_append_left _
    (List.mem_append_left _ (List.mem_map_of_mem isHalf))))

theorem mem_filesOf_of_loot (planned : filesOf catalog settings = .ok files) {file : TreeFile}
    (isFile : file ∈ catalog.lootFiles settings.folders) : file ∈ files := by
  obtain ⟨assets, data, assetsOk, dataOk, -, rfl⟩ := filesOf_eq_ok.1 planned
  rw [TreeFile.mem_sort]
  exact List.mem_append_right _ ((Catalog.mem_dataFiles dataOk).2 (.inr (.inl isFile)))

/-- A planned file below a folder of data is in order for the folder: a recipe, a loot table or a
tag. -/
theorem mem_filesOf_of_isInDataFolder (expanded : spec.expand = .ok catalog)
    (planned : filesOf catalog settings = .ok files) {file : TreeFile} (isFile : file ∈ files)
    {folder : String} (inside : Gate.isInDataFolder folder file.path = true) :
    (folder = settings.folders.recipe ∧ ∃ recipe ∈ catalog.recipes, ∃ json,
      recipe.toJson catalog.modId = .ok json ∧
        file = .ofText (Path.recipe settings.folders catalog.modId recipe.id) json.pretty) ∨
    (folder = settings.folders.lootTable ∧ file ∈ catalog.lootFiles settings.folders) ∨
      folder = "tags" := by
  obtain ⟨assets, data, assetsOk, dataOk, -, rfl⟩ := filesOf_eq_ok.1 planned
  rw [TreeFile.mem_sort] at isFile
  rcases List.mem_append.1 isFile with isAsset | isData
  · obtain ⟨rest, path⟩ := Catalog.isAsset_of_mem assetsOk isAsset
    rw [path, Gate.isInDataFolder_assets] at inside
    cases inside
  · exact Catalog.mem_dataFiles_of_isInDataFolder (noSlash_of_expand expanded)
      (Folders.accepted_cases settings.version) dataOk isData inside

end Plan

/-! ## Sizes -/

namespace Settings

theorem checkSize_eq_ok {key : String} {size : UInt32} (accepted : checkSize key size = .ok ()) :
    size ≤ 1024 ∧ size % 16 = 0 := by
  rw [checkSize] at accepted
  split at accepted
  · cases accepted
  · next inside =>
    split at accepted
    · cases accepted
    · next grid =>
      simp only [Bool.or_eq_true, decide_eq_true_eq, not_or, UInt32.not_lt] at inside
      exact ⟨inside.2, by simpa using grid⟩

/-- Accepted settings have a proper size of block textures. -/
theorem blockSize_of_check {settings checked : Settings} (accepted : settings.check = .ok checked) :
    settings.blockSize ≤ 1024 ∧ settings.blockSize % 16 = 0 := by
  obtain ⟨-, accepted⟩ := Outcome.check_bind_eq_ok.1 accepted
  obtain ⟨blockOk, -⟩ := Outcome.check_bind_eq_ok.1 accepted
  exact checkSize_eq_ok blockOk

end Settings

/-! ## Checks -/

namespace Gate

variable {spec : Specification} {catalog : Catalog} {settings : Settings} {files : List TreeFile}
  {renderer : Renderer} {archive : Archive}

theorem checkFolder_passed (expanded : spec.expand = .ok catalog)
    (planned : Plan.filesOf catalog settings = .ok files)
    (renders : archive.Renders renderer files) (kind : DataKind) :
    checkFolder (.ofCatalog catalog settings.version) kind archive = .ok none := by
  have other : kind.folder (.rejected settings.version) ∉
      [settings.folders.recipe, settings.folders.lootTable, "tags"] := by
    rw [Settings.folders, Folders.accepted, Folders.rejected]
    split <;> cases kind <;> decide
  have none : archive.names.filter
      (isInDataFolder (kind.folder (.rejected settings.version))) = [] := by
    rw [List.filter_eq_nil_iff]
    intro name isName inside
    obtain ⟨file, isFile, rfl⟩ := renders.exists_file isName
    refine other ?_
    rcases Plan.mem_filesOf_of_isInDataFolder expanded planned isFile inside with
      ⟨same, -⟩ | ⟨same, -⟩ | same <;> simp [same]
  rw [checkFolder]
  simp only [GateSettings.ofCatalog, none]

theorem checkFormsOf_passed {kind : DataKind} {names : List String}
    (each : ∀ name ∈ names, ∃ bytes, archive.entry name = .ok (name, bytes) ∧
      formFault? kind bytes = none) : checkFormsOf kind archive names = .ok none := by
  induction names with
  | nil => rfl
  | cons name rest ih =>
    obtain ⟨⟨bytes, entry, inOrder⟩, others⟩ := List.forall_mem_cons.1 each
    rw [checkFormsOf, entry]
    simp only [bind, Except.bind, Except.mapError, inOrder]
    exact ih others

theorem exists_text_of_isInDataFolder (expanded : spec.expand = .ok catalog)
    (planned : Plan.filesOf catalog settings = .ok files) {kind : DataKind} {file : TreeFile}
    (isFile : file ∈ files)
    (inside : isInDataFolder (kind.folder settings.folders) file.path = true) :
    ∃ text, file.contents = .text text ∧ formFault? kind text.toUTF8 = none := by
  have different : settings.folders.recipe ≠ settings.folders.lootTable ∧
      settings.folders.recipe ≠ "tags" ∧ settings.folders.lootTable ≠ "tags" := by
    rcases Folders.accepted_cases settings.version with folders | folders <;>
      rw [Settings.folders, folders] <;> decide
  obtain ⟨notLoot, recipeNotTags, lootNotTags⟩ := different
  rcases Plan.mem_filesOf_of_isInDataFolder expanded planned isFile inside with
    ⟨isFolder, recipe, -, json, jsonOk, rfl⟩ | ⟨isFolder, isLoot⟩ | isFolder
  · cases kind with
    | recipe => exact ⟨_, rfl, Recipe.formFault?_toJson jsonOk⟩
    | lootTable => exact absurd isFolder.symm notLoot
  · cases kind with
    | recipe => exact absurd isFolder notLoot
    | lootTable =>
      obtain ⟨block, -, rfl⟩ := List.mem_map.1 isLoot
      exact ⟨_, rfl, Loot.formFault?_table _ _ _⟩
  · cases kind with
    | recipe => exact absurd isFolder recipeNotTags
    | lootTable => exact absurd isFolder lootNotTags

/-- Every data file of a kind has what it must have. -/
theorem checkForms_passed (expanded : spec.expand = .ok catalog)
    (planned : Plan.filesOf catalog settings = .ok files)
    (renders : archive.Renders renderer files) (kind : DataKind) :
    checkForms (.ofCatalog catalog settings.version) kind archive = .ok none := by
  refine checkFormsOf_passed fun name isName => ?_
  obtain ⟨isName, inside⟩ := List.mem_filter.1 isName
  obtain ⟨file, isFile, rfl⟩ := renders.exists_file isName
  obtain ⟨text, holds, inOrder⟩ := exists_text_of_isInDataFolder expanded planned isFile
    (Bool.and_eq_true_iff.1 inside).1
  have bytes : file.bytes? = some text.toUTF8 := by rw [TreeFile.bytes?, holds]
  exact ⟨_, renders.entry_finished isFile bytes, inOrder⟩

theorem checkLoot_passed (planned : Plan.filesOf catalog settings = .ok files)
    (renders : archive.Renders renderer files) :
    checkLoot (.ofCatalog catalog settings.version) archive = .ok none := by
  rw [checkLoot]
  dsimp only
  have covered : catalog.blockIds.find? (fun id => !catalog.noDropIds.contains id &&
      !archive.contains (Path.lootTable (.accepted settings.version) catalog.modId id)) = none := by
    rw [List.find?_eq_none]
    intro id isId
    obtain ⟨block, isBlock, rfl⟩ := List.mem_map.1 isId
    cases drops : block.dropsNothing with
    | true =>
      have listed : block.id ∈ catalog.noDropIds :=
        List.mem_map_of_mem (List.mem_filter.2 ⟨isBlock, drops⟩)
      simp [listed]
    | false =>
      have isLoot := Plan.mem_filesOf_of_loot planned
        (List.mem_map_of_mem (List.mem_filter.2 ⟨isBlock, by simp [drops]⟩))
      have contained : archive.contains
          (Path.lootTable (.accepted settings.version) catalog.modId block.id) = true :=
        renders.contains_path isLoot (Archive.isFolderName_json _)
      simp [contained]
  simp only [GateSettings.ofCatalog, covered]

/-- The files that a sign must have are among those of its block. -/
theorem exists_file_of_mem_signFiles {config : GateSettings} {block : Block}
    (shape : config.shape block.id = block.shape) (isSign : block.shape.isSign = true)
    (sizes : TextureSizes) {path : String} (isPath : path ∈ signFiles config block.id) :
    Archive.isFolderName path = false ∧
      ∃ file ∈ block.assetFiles config.modId sizes, file.path = path := by
  have plain : "" ∈ block.shape.textures ∧ "" ∈ block.shape.models.map ModelTemplate.ending := by
    revert isSign
    cases block.shape <;> decide
  obtain ⟨isTexture, isModel⟩ := plain
  obtain ⟨template, isTemplate, ending⟩ := List.mem_map.1 isModel
  simp only [signFiles, shape, List.mem_append, List.mem_cons, List.not_mem_nil, or_false] at isPath
  simp only [Block.assetFiles, List.mem_append]
  rcases isPath with (rfl | rfl | rfl) | isEntity
  · obtain ⟨file, isFile, path⟩ : ∃ file ∈ block.modelFiles config.modId,
        file.path = Path.blockState config.modId block.id :=
      ⟨_, List.mem_append_right _ List.mem_cons_self, rfl⟩
    exact ⟨Archive.isFolderName_json _, file, .inl (.inl (.inr isFile)), path⟩
  · obtain ⟨file, isFile, path⟩ : ∃ file ∈ block.modelFiles config.modId,
        file.path = Path.model config.modId .block (block.id ++ template.ending) :=
      ⟨_, List.mem_append_left _ (List.mem_map_of_mem (List.mem_map_of_mem isTemplate)), rfl⟩
    rw [ending, String.append_empty] at path
    exact ⟨Archive.isFolderName_json _, file, .inl (.inl (.inr isFile)), path⟩
  · obtain ⟨file, isFile, path⟩ : ∃ file ∈ block.faceFiles config.modId sizes,
        file.path = Path.texture config.modId .block (block.id ++ "") :=
      ⟨_, List.mem_map_of_mem isTexture, rfl⟩
    rw [String.append_empty] at path
    exact ⟨Archive.isFolderName_png _, file, .inl (.inl (.inl isFile)), path⟩
  · rw [Option.toList_map] at isEntity
    obtain ⟨location, isLocation, rfl⟩ := List.mem_map.1 isEntity
    obtain ⟨file, isFile, path⟩ : ∃ file ∈ block.signFiles config.modId,
        file.path = Location.textureFile location :=
      ⟨_, List.mem_map_of_mem isLocation, rfl⟩
    exact ⟨Archive.isFolderName_png _, file, .inr isFile, path⟩

theorem checkSigns_passed (expanded : spec.expand = .ok catalog)
    (planned : Plan.filesOf catalog settings = .ok files)
    (renders : archive.Renders renderer files) :
    checkSigns (.ofCatalog catalog settings.version) archive = .ok none := by
  refine firstOf_passed ?_
  simp only [List.forall_mem_map, List.mem_filter, and_imp]
  intro id isId isSign
  obtain ⟨block, isBlock, rfl⟩ := List.mem_map.1 isId
  have shape := Catalog.shape_ofCatalog (Specification.differentIds_of_expand expanded)
    settings.version isBlock
  rw [shape] at isSign
  have covered : (signFiles (.ofCatalog catalog settings.version) block.id).find?
      (fun path => !archive.contains path) = none := by
    rw [List.find?_eq_none]
    intro path isPath
    obtain ⟨noFolder, file, isFile, rfl⟩ :=
      exists_file_of_mem_signFiles shape isSign settings.sizes isPath
    have contained := renders.contains_path
      (Plan.mem_filesOf_of_block expanded planned isBlock isFile) noFolder
    simp [contained]
  rw [checkSign, covered]

/-! ## Doors -/

theorem exists_doorSide {path : String} {bytes : ByteArray} {png : Png}
    (read : archive.read path = .ok (some bytes))
    (decoded : Png.decode (Bytes.list bytes) = .ok png) :
    ∃ side, doorSide archive path = .ok side := by
  rw [doorSide, read]
  simp only [bind, Except.bind, Except.mapError, decoded]
  split <;> exact ⟨_, rfl⟩

/-- The side of an image is found exactly if it is a square and its side is a multiple of
sixteen. -/
theorem doorSide_of_read {path : String} {bytes : ByteArray} {png : Png}
    (read : archive.read path = .ok (some bytes))
    (decoded : Png.decode (Bytes.list bytes) = .ok png)
    {side : UInt32} :
    doorSide archive path = .ok (.ok side) ↔
      png.header.width = side ∧ png.header.height = side ∧ side % 16 = 0 := by
  rw [doorSide, read]
  simp only [bind, Except.bind, Except.mapError, decoded, pure, Except.pure]
  split
  · next misfits =>
    refine iff_of_false (by simp) ?_
    rintro ⟨rfl, square, grid⟩
    simp [square, grid] at misfits
  · next fits =>
    simp only [Bool.or_eq_true, bne_iff_ne, not_or, not_not] at fits
    obtain ⟨square, grid⟩ := fits
    rw [Except.ok.injEq, Except.ok.injEq, ← square]
    constructor
    · rintro rfl
      exact ⟨rfl, rfl, grid⟩
    · exact And.left

theorem only_checkDoor {config : GateSettings} {id : String}
    (bottom : ∃ side, doorSide archive (doorTexture config id "_bottom") = .ok side)
    (top : ∃ side, doorSide archive (doorTexture config id "_top") = .ok side) :
    Only .doorTextures (checkDoor config archive id) := by
  obtain ⟨bottom, isBottom⟩ := bottom
  obtain ⟨top, isTop⟩ := top
  simp only [checkDoor, isBottom, isTop, bind, Except.bind]
  split
  · exact only_fail ..
  · split
    · exact only_fail ..
    · split
      · exact only_fail ..
      · exact only_of_passed rfl

theorem doorSide_of_block (expanded : spec.expand = .ok catalog)
    (planned : Plan.filesOf catalog settings = .ok files)
    (renders : archive.Renders renderer files) {checked : Settings}
    (accepted : settings.check = .ok checked) {block : Block} (isBlock : block ∈ catalog.blocks)
    {half : String} (isHalf : half ∈ block.shape.textures) :
    ∃ side, doorSide archive
        (doorTexture (.ofCatalog catalog settings.version) block.id half) = .ok side ∧
      (renderer.source.HasNone → side = .ok settings.blockSize) := by
  obtain ⟨done, bytes, ofFace, holds, read⟩ :=
    renders.read _ (Plan.face_mem_filesOf expanded planned isBlock isHalf)
  obtain ⟨task, image, written, isTask, writtenHolds, paints⟩ := ofFace.painted rfl
  obtain rfl : written = bytes := Option.some.inj (writtenHolds.symm.trans holds)
  obtain ⟨png, decoded, width, height⟩ := paints.exists_decode
  obtain ⟨side, isSide⟩ := exists_doorSide read decoded
  refine ⟨side, isSide, fun noAssets => ?_⟩
  obtain ⟨sameWidth, sameHeight⟩ := paints.sides_of_hasNone noAssets
  obtain rfl : _ = task := Option.some.inj isTask
  have fits := (doorSide_of_read read decoded).2 ⟨width.trans sameWidth, height.trans sameHeight,
    (Settings.blockSize_of_check accepted).2⟩
  exact Except.ok.inj (isSide.symm.trans fits)

/-- Only the textures of doors may fail their check, and they pass it if no assets are found. -/
theorem checkDoors_only (expanded : spec.expand = .ok catalog)
    (planned : Plan.filesOf catalog settings = .ok files)
    (renders : archive.Renders renderer files) {checked : Settings}
    (accepted : settings.check = .ok checked) :
    Only .doorTextures (checkDoors (.ofCatalog catalog settings.version) archive) ∧
      (renderer.source.HasNone →
        checkDoors (.ofCatalog catalog settings.version) archive = .ok none) := by
  have isDoor : ∀ id ∈ catalog.blockIds,
      (GateSettings.ofCatalog catalog settings.version).shape id = .door →
      ∃ block ∈ catalog.blocks, block.id = id ∧ block.shape = .door := by
    intro id isId shape
    obtain ⟨block, isBlock, rfl⟩ := List.mem_map.1 isId
    rw [Catalog.shape_ofCatalog (Specification.differentIds_of_expand expanded) settings.version
      isBlock] at shape
    exact ⟨block, isBlock, rfl, shape⟩
  constructor
  · refine firstOf_only ?_
    simp only [List.forall_mem_map, List.mem_filter, decide_eq_true_eq, and_imp]
    intro id isId shape
    obtain ⟨block, isBlock, rfl, door⟩ := isDoor id isId shape
    obtain ⟨bottom, isBottom, -⟩ := doorSide_of_block expanded planned renders accepted isBlock
      (show "_bottom" ∈ block.shape.textures by rw [door]; decide)
    obtain ⟨top, isTop, -⟩ := doorSide_of_block expanded planned renders accepted isBlock
      (show "_top" ∈ block.shape.textures by rw [door]; decide)
    exact only_checkDoor ⟨bottom, isBottom⟩ ⟨top, isTop⟩
  · intro noAssets
    refine firstOf_passed ?_
    simp only [List.forall_mem_map, List.mem_filter, decide_eq_true_eq, and_imp]
    intro id isId shape
    obtain ⟨block, isBlock, rfl, door⟩ := isDoor id isId shape
    obtain ⟨bottom, isBottom, bottomFits⟩ :=
      doorSide_of_block expanded planned renders accepted isBlock
        (show "_bottom" ∈ block.shape.textures by rw [door]; decide)
    obtain ⟨top, isTop, topFits⟩ :=
      doorSide_of_block expanded planned renders accepted isBlock
        (show "_top" ∈ block.shape.textures by rw [door]; decide)
    rw [bottomFits noAssets] at isBottom
    rw [topFits noAssets] at isTop
    simp [checkDoor, isBottom, isTop, bind, Except.bind, pure, Except.pure]

/-- A packed build passes all checks of the gate but that of the textures of doors, which
decides. -/
theorem check_eq_checkDoors (expanded : spec.expand = .ok catalog)
    (planned : Plan.filesOf catalog settings = .ok files)
    (renders : archive.Renders renderer files) :
    check (.ofCatalog catalog settings.version) archive =
      checkDoors (.ofCatalog catalog settings.version) archive := by
  have folder := checkFolder_passed expanded planned renders
  have forms := checkForms_passed expanded planned renders
  have loot := checkLoot_passed planned renders
  have signs := checkSigns_passed expanded planned renders
  rw [check, checks, firstOf_cons_passed (folder .recipe), firstOf_cons_passed (forms .recipe),
    firstOf_cons_passed (folder .lootTable), firstOf_cons_passed (forms .lootTable),
    firstOf_cons_passed loot]
  exact firstOf_cons_of_passed (firstOf_cons_passed signs [])

/-- What a packed build fails is the check of the textures of doors, and it passes if no assets are
found. -/
theorem check_only (expanded : spec.expand = .ok catalog)
    (planned : Plan.filesOf catalog settings = .ok files)
    (renders : archive.Renders renderer files) {checked : Settings}
    (accepted : settings.check = .ok checked) :
    Only .doorTextures (check (.ofCatalog catalog settings.version) archive) ∧
      (renderer.source.HasNone →
        check (.ofCatalog catalog settings.version) archive = .ok none) := by
  rw [check_eq_checkDoors expanded planned renders]
  exact checkDoors_only expanded planned renders accepted

end Gate

/-- A build from accepted settings, packed and opened again, reaches a verdict of the gate that
tells of nothing but textures of doors. If no assets are found, it passes. Textures are compressed
and the archive is written in any way, provided that its members have the names and bytes that are
written. -/
theorem Build.inspect_passed {compress : List UInt8 → List UInt8}
    {write : List Tree.Entry → List UInt8} {spec : Specification} {settings : Settings}
    {source : AssetSource} {build : Build} (accepted : settings.check = .ok settings)
    (built : ofSpecification compress spec settings source = .ok build)
    (stores : Zip.Stores (write (Archive.sort (entriesOf build.files)))
      (Archive.sort (entriesOf build.files))) (path : String) :
    Gate.Only .doorTextures (build.inspect write path) ∧
      (source.HasNone → build.inspect write path = .ok none) := by
  obtain ⟨plan, planned, sameCatalog, version, rendered⟩ := ofSpecification_eq_ok built
  obtain ⟨expanded, filed⟩ := Plan.ofSpecification_eq_ok.1 planned
  obtain ⟨assets, data, -, -, different, isSorted⟩ := Plan.filesOf_eq_ok.1 filed
  have paths : (plan.files.map TreeFile.path).Nodup := by
    rw [isSorted]
    exact ((TreeFile.sort_perm _).map TreeFile.path).nodup_iff.2 different
  obtain ⟨archive, verdict, holds⟩ := inspect_opened rendered paths stores path
  rw [verdict, gateSettings, sameCatalog, version]
  exact Gate.check_only expanded filed (renders_of_holds rendered holds) accepted

/-- A mod of a door, a sign and a recipe passes the gate. -/
theorem Build.inspect_doorAndSign :
    ∃ build, ofSpecification Zlib.encode .doorAndSign {} .empty = .ok build ∧
      (∃ block ∈ build.catalog.blocks, block.shape = .door) ∧
      (∃ block ∈ build.catalog.blocks, block.shape = .sign) ∧
      build.inspect Zip.encode "ab.jar" = .ok none := by
  obtain ⟨plan, build, planned, built, same, -, stores⟩ :=
    exists_doorAndSign TextureTask.IsDark.exists_finds_empty
  obtain ⟨⟨door, isDoor, shape, -⟩, sign⟩ := Plan.blocks_doorAndSign planned
  rw [← same] at isDoor sign
  exact ⟨build, built, ⟨door, isDoor, shape⟩, sign,
    (inspect_passed rfl built stores "ab.jar").2 AssetSource.hasNone_empty⟩

end Blockwright
