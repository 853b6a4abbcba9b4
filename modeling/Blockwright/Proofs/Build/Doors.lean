import Blockwright.Proofs.Gate.Checks
import Blockwright.Proofs.Image.Frames

/-!
# Doors of builds

The faces of a door are synthesized, or made from assets of any size. A build passes the gate
exactly if the two faces of every door are squares of one size, which is a multiple of sixteen.
-/

namespace Blockwright

/-! ## Sides of textures -/

/-- Whether an image with the given sides is read from a file. -/
def TreeFile.HasSides (file : TreeFile) (width height : UInt32) : Prop :=
  ∃ bytes png, file.bytes? = some bytes ∧ Png.decode (Bytes.list bytes) = .ok png ∧
    png.header.width = width ∧ png.header.height = height

theorem TreeFile.HasSides.unique {file : TreeFile} {width height otherWidth otherHeight : UInt32}
    (sides : file.HasSides width height) (others : file.HasSides otherWidth otherHeight) :
    width = otherWidth ∧ height = otherHeight := by
  obtain ⟨bytes, png, holds, decoded, rfl, rfl⟩ := sides
  obtain ⟨otherBytes, otherPng, otherHolds, otherDecoded, rfl, rfl⟩ := others
  obtain rfl := Option.some.inj (holds.symm.trans otherHolds)
  obtain rfl := Except.ok.inj (decoded.symm.trans otherDecoded)
  exact ⟨rfl, rfl⟩

/-- Whether the first frame of some asset has the given sides. -/
def AssetSource.HasFrame (compress : List UInt8 → List UInt8) (source : AssetSource)
    (width height : UInt32) : Prop :=
  ∃ asset bytes plain image frame, source.read asset = .ok (some bytes) ∧
    Png.normalizeWith compress (Bytes.list bytes) = .ok plain ∧ Png.decodeImage plain = .ok image ∧
    image.firstFrame? = some frame ∧ frame.width = width ∧ frame.height = height

/-- Whether a build has a face of a door with the given sides. -/
def Build.HasFace (build : Build) (block : Block) (half : String) (width height : UInt32) : Prop :=
  ∃ file ∈ build.files, file.path = Path.texture build.catalog.modId .block (block.id ++ half) ∧
    file.HasSides width height

namespace Origin

variable {compress : List UInt8 → List UInt8} {source : AssetSource} {path : String}

/-- Whether an image is the part of an asset that a role uses. -/
def IsPart (compress : List UInt8 → List UInt8) (source : AssetSource) (role : TextureRole)
    (image : Image) : Prop :=
  ∃ asset bytes plain whole, source.read asset = .ok (some bytes) ∧
    Png.normalizeWith compress (Bytes.list bytes) = .ok plain ∧ Png.decodeImage plain = .ok whole ∧
    role.crop? whole = some image

theorem isPart_of_image? {role : TextureRole} {asset : String} {image : Image}
    (read : image? compress source path role asset = .ok (some image)) :
    IsPart compress source role image := by
  rw [image?] at read
  split at read
  · cases read
  · cases read
  · next bytes isAsset =>
    obtain ⟨image, decoded, same⟩ := Outcome.map_eq_ok.1 read
    cases same
    rw [decode] at decoded
    split at decoded
    · cases decoded
    · next plain normalized =>
      split at decoded
      · cases decoded
      · next whole isWhole =>
        split at decoded
        · next part isPart =>
          cases decoded
          exact ⟨asset, bytes, plain, whole, isAsset, normalized, isWhole, isPart⟩
        · cases decoded

theorem isPart_of_copied? {role : TextureRole} {locations : List String} {image : Image}
    (read : copied? compress source path role locations = .ok (some image)) :
    IsPart compress source role image := by
  induction locations with
  | nil => cases read
  | cons location rest ih =>
    rw [copied?] at read
    obtain ⟨first, firstOk, read⟩ := Outcome.bind_eq_ok.1 read
    cases first with
    | none => exact ih read
    | some found =>
      cases read
      exact isPart_of_image? firstOk

/-- The image that a texture is made from is part of an asset, or synthesized. -/
theorem image_cases {found : Dependencies} {task : TextureTask} {origin : Origin} {image : Image}
    (made : Origin.image compress source found path task = .ok (origin, image)) :
    IsPart compress source task.role image ∨ synthesize task = .ok image := by
  obtain ⟨asset, assetOk, made⟩ := Outcome.bind_eq_ok.1 made
  cases asset with
  | none =>
    obtain ⟨synthetic, isSynthetic, same⟩ := Outcome.bind_eq_ok.1 made
    cases same
    exact .inr isSynthetic
  | some pair =>
    cases made
    refine .inl ?_
    rw [asset?] at assetOk
    split at assetOk
    · obtain ⟨copied, copiedOk, same⟩ := Outcome.map_eq_ok.1 assetOk
      cases copied <;> cases same
      exact isPart_of_copied? copiedOk
    · obtain ⟨templated, templatedOk, same⟩ := Outcome.map_eq_ok.1 assetOk
      cases templated <;> cases same
      rw [templated?] at templatedOk
      split at templatedOk
      · exact isPart_of_image? templatedOk
      · cases templatedOk
    · cases assetOk

end Origin

theorem Rendered.hasSides {renderer : Renderer} {file done : TreeFile}
    (rendered : Rendered renderer file done) (placeholder : file.bytes? = none)
    {task : TextureTask} (isTask : file.task = some task) :
    ∃ source, (Origin.IsPart renderer.compress renderer.source task.role source ∨
        Origin.synthesize task = .ok source) ∧
      done.HasSides source.width source.height := by
  obtain ⟨other, image, bytes, isOther, holds, paints⟩ := rendered.painted placeholder
  obtain rfl := Option.some.inj (isTask.symm.trans isOther)
  obtain ⟨_, _, source, made, sides⟩ := paints.made
  obtain ⟨png, decoded, width, height⟩ := paints.exists_decode
  exact ⟨source, Origin.image_cases made, bytes, png, holds, decoded, width.trans sides.width,
    height.trans sides.height⟩

/-! ## Faces -/

namespace Build

variable {compress : List UInt8 → List UInt8} {spec : Specification} {settings : Settings}
  {source : AssetSource} {build : Build}

theorem exists_face (accepted : settings.check = .ok settings)
    (built : ofSpecification compress spec settings source = .ok build) {block : Block}
    (isBlock : block ∈ build.catalog.blocks) {half : String}
    (isHalf : half ∈ block.shape.textures) :
    ∃ width height, build.HasFace block half width height ∧
      (width = settings.blockSize ∧ height = settings.blockSize ∧ settings.blockSize % 16 = 0 ∨
        source.HasFrame compress width height) := by
  obtain ⟨plan, planned, catalog, -, rendered⟩ := ofSpecification_eq_ok built
  obtain ⟨expanded, filed⟩ := Plan.ofSpecification_eq_ok.1 planned
  rw [catalog] at isBlock
  have isFace := Plan.face_mem_filesOf expanded filed isBlock isHalf
  obtain ⟨done, isDone, ofFace⟩ := Outcome.exists_result_of_forall₂ rendered isFace
  obtain ⟨image, origin, sides⟩ := ofFace.hasSides rfl rfl
  refine ⟨image.width, image.height, ⟨done, isDone, catalog ▸ ofFace.path, sides⟩, ?_⟩
  rcases origin with ⟨asset, bytes, plain, whole, read, normalized, decoded, isPart⟩ | made
  · exact .inr ⟨asset, bytes, plain, whole, image, read, normalized, decoded, isPart, rfl, rfl⟩
  · obtain ⟨width, height⟩ := Origin.sides_of_synthesize made
    exact .inl ⟨width, height, (Settings.blockSize_of_check accepted).2⟩

theorem unique_face (built : ofSpecification compress spec settings source = .ok build)
    {block : Block}
    {half : String} {width height otherWidth otherHeight : UInt32}
    (face : build.HasFace block half width height)
    (other : build.HasFace block half otherWidth otherHeight) :
    width = otherWidth ∧ height = otherHeight := by
  obtain ⟨plan, planned, -, -, rendered⟩ := ofSpecification_eq_ok built
  have paths : build.files.map TreeFile.path = plan.files.map TreeFile.path :=
    Outcome.map_eq_map_of_forall₂ rendered.flip fun _ _ ofFile => ofFile.path
  have different : (build.files.map TreeFile.path).Nodup := paths ▸ Plan.nodup_path planned
  obtain ⟨file, isFile, path, sides⟩ := face
  obtain ⟨otherFile, isOther, otherPath, otherSides⟩ := other
  obtain rfl := List.inj_on_of_nodup_map different isFile isOther (path.trans otherPath.symm)
  exact sides.unique otherSides

end Build

/-! ## Verdicts -/

namespace Gate

variable {archive : Archive}

theorem checkDoor_eq_passed {config : GateSettings} {id : String} :
    checkDoor config archive id = .ok none ↔
      ∃ side, doorSide archive (doorTexture config id "_bottom") = .ok (.ok side) ∧
        doorSide archive (doorTexture config id "_top") = .ok (.ok side) := by
  rw [checkDoor]
  cases bottomRead : doorSide archive (doorTexture config id "_bottom") with
  | error error => simp [bind, Except.bind]
  | ok bottomSide =>
    cases topRead : doorSide archive (doorTexture config id "_top") with
    | error error => cases bottomSide <;> simp [bind, Except.bind, fail]
    | ok topSide =>
      cases bottomSide with
      | error reason => simp [bind, Except.bind, fail]
      | ok bottom =>
        cases topSide with
        | error reason => simp [bind, Except.bind, fail]
        | ok top =>
          by_cases same : bottom = top
          · simp [bind, Except.bind, same, pure, Except.pure]
          · simp [bind, Except.bind, same, fail, Ne.symm same]

/-- The check of the textures of doors is passed exactly if every door passes it. -/
theorem checkDoors_eq_passed {config : GateSettings} :
    checkDoors config archive = .ok none ↔
      ∀ id ∈ config.blockIds, config.shape id = .door → checkDoor config archive id = .ok none := by
  rw [checkDoors, firstOf_eq_passed]
  simp only [List.forall_mem_map, List.mem_filter, decide_eq_true_eq, and_imp]

end Gate

namespace Build

variable {compress : List UInt8 → List UInt8} {spec : Specification} {settings : Settings}
  {source : AssetSource} {build : Build}

theorem mem_entriesOf {file : TreeFile} {files : List TreeFile} (isFile : file ∈ files)
    {bytes : ByteArray} (holds : file.bytes? = some bytes) :
    (file.path, bytes) ∈ entriesOf files :=
  List.mem_filterMap.2 ⟨file, isFile, by rw [holds]; rfl⟩

theorem doorSide_of_hasFace {archive : Archive} (holds : archive.Holds (entriesOf build.files))
    {block : Block} {half : String} {width height : UInt32}
    (face : build.HasFace block half width height) {side : UInt32} :
    Gate.doorSide archive (Gate.doorTexture build.gateSettings block.id half) = .ok (.ok side) ↔
      width = side ∧ height = side ∧ side % 16 = 0 := by
  obtain ⟨file, isFile, path, bytes, png, isBytes, decoded, rfl, rfl⟩ := face
  have read := holds.read _ (mem_entriesOf isFile isBytes)
  rw [path] at read
  exact Gate.doorSide_of_read read decoded

/-- The faces of the doors of a build are synthesized with the proper size, or made from assets. A
packed build passes the gate exactly if both faces of every door are squares of one size, which is a
multiple of sixteen. -/
theorem inspect_doors (accepted : settings.check = .ok settings)
    (built : ofSpecification compress spec settings source = .ok build) :
    (∀ block ∈ build.catalog.blocks, block.shape = .door → ∀ half ∈ ["_bottom", "_top"],
      ∃ width height, build.HasFace block half width height ∧
        (width = settings.blockSize ∧ height = settings.blockSize ∧ settings.blockSize % 16 = 0 ∨
          source.HasFrame compress width height)) ∧
    ∀ write : List Tree.Entry → List UInt8,
      Zip.Stores (write (Archive.sort (entriesOf build.files)))
        (Archive.sort (entriesOf build.files)) →
      ∀ path, build.inspect write path = .ok none ↔
        ∀ block ∈ build.catalog.blocks, block.shape = .door → ∃ side, side % 16 = 0 ∧
          build.HasFace block "_bottom" side side ∧ build.HasFace block "_top" side side := by
  have faces : ∀ block ∈ build.catalog.blocks, block.shape = .door →
      ∀ half ∈ ["_bottom", "_top"], ∃ width height, build.HasFace block half width height ∧
        (width = settings.blockSize ∧ height = settings.blockSize ∧ settings.blockSize % 16 = 0 ∨
          source.HasFrame compress width height) := by
    intro block isBlock isDoor half isHalf
    exact exists_face accepted built isBlock (by rw [isDoor]; exact isHalf)
  refine ⟨faces, fun write stores path => ?_⟩
  obtain ⟨plan, planned, catalog, version, rendered⟩ := ofSpecification_eq_ok built
  obtain ⟨expanded, filed⟩ := Plan.ofSpecification_eq_ok.1 planned
  have different := Plan.nodup_path planned
  obtain ⟨archive, verdict, holds⟩ := inspect_opened rendered different stores path
  have decided : Gate.check build.gateSettings archive =
      Gate.checkDoors build.gateSettings archive := by
    rw [gateSettings, catalog, version]
    exact Gate.check_eq_checkDoors expanded filed (renders_of_holds rendered holds)
  have differentIds := Specification.differentIds_of_expand expanded
  rw [← catalog] at differentIds
  rw [verdict, decided, Gate.checkDoors_eq_passed]
  constructor
  · intro passed block isBlock isDoor
    have shape := Catalog.shape_ofCatalog differentIds build.manifest.version isBlock
    have ofDoor := passed block.id (List.mem_map_of_mem isBlock) (shape.trans isDoor)
    obtain ⟨side, bottom, top⟩ := Gate.checkDoor_eq_passed.1 ofDoor
    obtain ⟨_, _, bottomFace, -⟩ := faces block isBlock isDoor "_bottom" (by simp)
    obtain ⟨_, _, topFace, -⟩ := faces block isBlock isDoor "_top" (by simp)
    obtain ⟨rfl, rfl, grid⟩ := (doorSide_of_hasFace holds bottomFace).1 bottom
    obtain ⟨rfl, rfl, -⟩ := (doorSide_of_hasFace holds topFace).1 top
    exact ⟨_, grid, bottomFace, topFace⟩
  · intro fits id isId isDoor
    obtain ⟨block, isBlock, rfl⟩ := List.mem_map.1 isId
    have shape := Catalog.shape_ofCatalog differentIds build.manifest.version isBlock
    obtain ⟨side, grid, bottom, top⟩ := fits block isBlock (shape.symm.trans isDoor)
    exact Gate.checkDoor_eq_passed.2 ⟨side, (doorSide_of_hasFace holds bottom).2 ⟨rfl, rfl, grid⟩,
      (doorSide_of_hasFace holds top).2 ⟨rfl, rfl, grid⟩⟩

end Build

/-! ## A door with copied faces -/

/-- Twenty columns and rows, black but for one clear pixel. -/
def Image.tile : Image :=
  .ofFn 20 20 fun x y => if x = 0 ∧ y = 0 then .clear else .solid ⟨0, 0, 0⟩

/-- The assets with that of the faces in the given file. -/
def AssetSource.ofTile (file : List UInt8) : AssetSource :=
  .ofTable { entries := [("assets/minecraft/textures/block/tile.png", Bytes.ofList file)] }

namespace Image

theorem mem_tile : Pixel.clear ∈ tile.pixels ∧ Pixel.solid ⟨0, 0, 0⟩ ∈ tile.pixels :=
  ⟨mem_ofFn (x := 0) (y := 0) (by decide) (by decide),
    mem_ofFn (x := 1) (y := 0) (by decide) (by decide)⟩

theorem isPresentable_tile : tile.IsPresentable where
  sized := sized_ofFn _ _ _
  wide := by decide
  high := by decide
  seen := ⟨_, mem_tile.2, rfl⟩
  varied := ⟨_, mem_tile.1, _, mem_tile.2, by decide⟩

end Image

theorem TextureTask.IsFace.finds_tile {task : TextureTask} (isFace : task.IsFace)
    {bytes : List UInt8} (encoded : Png.encodeImageWith Zlib.encode .tile = .ok bytes)
    {file : TreeFile} (holds : file.bytes? = none) (isTask : file.task = some task) :
    (Build.renderer Zlib.encode {} (.ofTile bytes)).Finds file task .tile := by
  obtain ⟨clear, black⟩ := Image.mem_tile
  have isAsset : Location.textureFile (Location.canonical "minecraft:block/tile") =
      "assets/minecraft/textures/block/tile.png" := by decide +kernel
  refine Renderer.finds_of_copies rfl holds isTask isFace.1 isAsset encoded rfl ?_
    (.of_small rfl Image.isPresentable_tile
      (Theme.keepsContrast_of_alpha clear black (by decide) _ _) (by decide) (by decide))
  rw [isFace.2]
  exact Image.firstFrame?_of_not_isStrip fun strip => absurd strip.longer (Nat.lt_irrefl 20)

/-- The door and the sign are built with the tile on both faces of the door, and the archive is read
back. -/
theorem Build.exists_doorAndSign_tile :
    ∃ source build, ofSpecification Zlib.encode .doorAndSign {} source = .ok build ∧
      (∃ block ∈ build.catalog.blocks, block.shape = .door ∧
        ∀ half ∈ ["_bottom", "_top"], build.HasFace block half 20 20) ∧
      Zip.Stores (Zip.encode (Archive.sort (entriesOf build.files)))
        (Archive.sort (entriesOf build.files)) := by
  obtain ⟨bytes, -, encoded, -⟩ := Image.isPresentable_tile.exists_encodeWith
    (Png.keeps_encode (by decide) (by decide)) ""
  obtain ⟨plan, build, planned, built, catalog, rendered, stores⟩ :=
    @exists_doorAndSign (.ofTile bytes) fun file task holds isTask _ isFace =>
      ⟨_, isFace.finds_tile encoded holds isTask, by decide, by decide⟩
  obtain ⟨⟨block, isBlock, isDoor, copies⟩, -⟩ := Plan.blocks_doorAndSign planned
  obtain ⟨expanded, filed⟩ := Plan.ofSpecification_eq_ok.1 planned
  refine ⟨_, build, built, ⟨block, catalog ▸ isBlock, isDoor, fun half isHalf => ?_⟩, stores⟩
  obtain ⟨done, isDone, ofFace⟩ := Outcome.exists_result_of_forall₂ rendered
    (Plan.face_mem_filesOf expanded filed isBlock (by rw [isDoor]; exact isHalf))
  obtain ⟨image, texture, holds, paints, sides⟩ :=
    (TextureTask.IsFace.finds_tile ⟨copies, rfl⟩ encoded rfl rfl).exists_paints ofFace
  obtain ⟨png, decoded, width, height⟩ := paints.exists_decode
  exact ⟨done, isDone, catalog ▸ ofFace.path, texture, png, holds, decoded,
    width.trans sides.width, height.trans sides.height⟩

/-- A mod of a door and a sign passes the gate. With the tile on the faces of the door it is built
as well, but the gate refuses it. -/
theorem Build.inspect_doors_tile :
    (∃ build, ofSpecification Zlib.encode .doorAndSign {} .empty = .ok build ∧
      (∃ block ∈ build.catalog.blocks, block.shape = .door) ∧
      build.inspect Zip.encode "ab.jar" = .ok none) ∧
    ∃ source build, ofSpecification Zlib.encode .doorAndSign {} source = .ok build ∧
      (∃ block ∈ build.catalog.blocks, block.shape = .door ∧
        ∀ half ∈ ["_bottom", "_top"], build.HasFace block half 20 20) ∧
      build.inspect Zip.encode "ab.jar" ≠ .ok none := by
  constructor
  · obtain ⟨plan, build, planned, built, same, -, stores⟩ :=
      exists_doorAndSign TextureTask.IsDark.exists_finds_empty
    obtain ⟨⟨block, isBlock, isDoor, -⟩, -⟩ := Plan.blocks_doorAndSign planned
    obtain ⟨faces, decides⟩ := inspect_doors rfl built
    refine ⟨build, built, ⟨block, same ▸ isBlock, isDoor⟩, (decides _ stores _).2 ?_⟩
    intro other isOther otherDoor
    have side : ∀ half ∈ ["_bottom", "_top"], build.HasFace other half 32 32 := by
      intro half isHalf
      obtain ⟨width, height, face, ⟨rfl, rfl, -⟩ | ⟨asset, bytes, _, _, _, read, -⟩⟩ :=
        faces other isOther otherDoor half isHalf
      · exact face
      · cases AssetSource.hasNone_empty asset _ read
    exact ⟨32, rfl, side _ (by simp), side _ (by simp)⟩
  · obtain ⟨source, build, built, ⟨block, isBlock, isDoor, faces⟩, stores⟩ :=
      exists_doorAndSign_tile
    refine ⟨source, build, built, ⟨block, isBlock, isDoor, faces⟩, fun passed => ?_⟩
    obtain ⟨side, grid, bottom, -⟩ :=
      ((inspect_doors rfl built).2 _ stores _).1 passed block isBlock isDoor
    obtain ⟨rfl, -⟩ := unique_face built (faces "_bottom" (by simp)) bottom
    cases grid

end Blockwright
