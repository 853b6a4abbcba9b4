import Blockwright.Build
import Blockwright.Proofs.Archive.Opening
import Blockwright.Proofs.Data.Folders
import Blockwright.Proofs.Json.Size
import Blockwright.Proofs.Plan.Placeholders
import Blockwright.Proofs.Rendering.Success

/-!
# Packed builds

A build has a file for each file of its plan, at the same path and with the bytes that rendering
makes. Packed and opened again, it is an archive that answers for these files.
-/

namespace Blockwright

/-- Whether an archive lists the paths of files and answers with the bytes that rendering makes of
them. -/
structure Archive.Renders (renderer : Renderer) (archive : Archive) (files : List TreeFile) :
    Prop where
  names : ∀ name, name ∈ archive.names ↔
    name ∈ files.map TreeFile.path ∧ isFolderName name = false
  read : ∀ file ∈ files, ∃ done bytes, Rendered renderer file done ∧ done.bytes? = some bytes ∧
    archive.read file.path = .ok (some bytes)

namespace Build

/-- What the textures of a build are rendered with. -/
abbrev renderer (compress : List UInt8 → List UInt8) (settings : Settings) (source : AssetSource) :
    Renderer :=
  { source, settings := settings.theme, compress }

variable {compress : List UInt8 → List UInt8} {write : List Tree.Entry → List UInt8}
  {source : AssetSource} {renderer : Renderer}

/-- A build is a plan whose files are rendered, with the tally of the run. -/
theorem ofSpecification_cases {spec : Specification} {settings : Settings} {build : Build}
    (built : ofSpecification compress spec settings source = .ok build) :
    ∃ plan run, Plan.ofSpecification spec settings = .ok plan ∧
      (Build.renderer compress settings source).render plan.files (.start : Run Memo) =
        (.ok build.files, run) ∧
      build.catalog = plan.catalog ∧ build.manifest.version = settings.version ∧
      build.manifest.tally = run.tally := by
  obtain ⟨plan, planned, built⟩ := Outcome.bind_eq_ok.1 built
  rw [ofPlan] at built
  dsimp only at built
  split at built
  · cases built
  · next files run rendered =>
    cases built
    exact ⟨plan, run, Outcome.mapError_eq_ok.1 planned, rendered, rfl, rfl, rfl⟩

/-- A build is made of a plan by rendering. -/
theorem ofSpecification_eq_ok {spec : Specification} {settings : Settings} {build : Build}
    (built : ofSpecification compress spec settings source = .ok build) :
    ∃ plan, Plan.ofSpecification spec settings = .ok plan ∧ build.catalog = plan.catalog ∧
      build.manifest.version = settings.version ∧
      List.Forall₂ (Rendered (Build.renderer compress settings source)) plan.files build.files := by
  obtain ⟨plan, run, planned, rendered, catalog, version, -⟩ := ofSpecification_cases built
  exact ⟨plan, planned, catalog, version, Renderer.render_eq_ok rendered⟩

/-- A plan is built if every file of it can be rendered. -/
theorem exists_ofPlan {plan : Plan} {settings : Settings}
    (each : ∀ file ∈ plan.files,
      (Build.renderer compress settings source).CanRender Memo file)
    (room : plan.files.length * (Build.renderer compress settings source).mostCost <
      UInt32.size) :
    ∃ build, ofPlan compress plan settings source = .ok build := by
  obtain ⟨done, after, rendered⟩ := Renderer.exists_render each (Run.hasRoom_start room)
  rw [ofPlan]
  simp only [rendered]
  exact ⟨_, rfl⟩

theorem entriesOf_eq_ok {files done : List TreeFile}
    (rendered : List.Forall₂ (Rendered renderer) files done) :
    Archive.entriesOf done = .ok (entriesOf done) ∧
      List.Forall₂ (fun file entry => entry.1 = file.path ∧
        ∃ done, Rendered renderer file done ∧ done.bytes? = some entry.2)
          files (entriesOf done) := by
  induction rendered with
  | nil => exact ⟨rfl, .nil⟩
  | @cons file first files rest ofFirst _ ih =>
    obtain ⟨restOk, restEach⟩ := ih
    obtain ⟨bytes, holds⟩ := ofFirst.exists_bytes
    have entries : entriesOf (first :: rest) = (first.path, bytes) :: entriesOf rest := by
      simp [entriesOf, holds]
    rw [Archive.entriesOf] at restOk ⊢
    rw [entries]
    refine ⟨?_, .cons ⟨ofFirst.path, first, ofFirst, holds⟩ restEach⟩
    rw [List.mapM_cons, restOk]
    simp [holds, bind, Except.bind, pure, Except.pure]

/-- An archive of the entries of a build answers for the files of the plan. -/
theorem renders_of_holds {files done : List TreeFile} {archive : Archive}
    (rendered : List.Forall₂ (Rendered renderer) files done)
    (holds : archive.Holds (entriesOf done)) : archive.Renders renderer files := by
  obtain ⟨-, each⟩ := entriesOf_eq_ok rendered
  have paths : (entriesOf done).map Prod.fst = files.map TreeFile.path :=
    Outcome.map_eq_map_of_forall₂ each.flip fun _ _ both => both.1
  refine ⟨fun name => by rw [holds.names, paths], fun file isFile => ?_⟩
  obtain ⟨entry, isEntry, samePath, done, ofFile, bytes⟩ :=
    Outcome.exists_result_of_forall₂ each isFile
  exact ⟨done, entry.2, ofFile, bytes, samePath ▸ holds.read entry isEntry⟩

/-- A packed build is opened as an archive of its entries, and checked as that. -/
theorem inspect_opened {build : Build} {files : List TreeFile}
    (rendered : List.Forall₂ (Rendered renderer) files build.files)
    (different : (files.map TreeFile.path).Nodup)
    (stores : Zip.Stores (write (Archive.sort (entriesOf build.files)))
      (Archive.sort (entriesOf build.files))) (path : String) :
    ∃ archive, build.inspect write path = Gate.check build.gateSettings archive ∧
      archive.Holds (entriesOf build.files) := by
  obtain ⟨finished, each⟩ := entriesOf_eq_ok rendered
  have paths : (entriesOf build.files).map Prod.fst = files.map TreeFile.path :=
    Outcome.map_eq_map_of_forall₂ each.flip fun _ _ both => both.1
  obtain ⟨bytes, archive, packed, opened, holds⟩ :=
    Archive.open_packFiles path finished (paths ▸ different) stores
  refine ⟨archive, ?_, holds⟩
  rw [inspect, packed]
  simp [bind, Except.bind, opened, Except.mapError]

/-! ## Small builds -/

section Small

variable {spec : Specification} {settings : Settings} {plan : Plan}

/-- Whether a file is a short document or a small texture, with a proper name. -/
structure IsSmall (renderer : Renderer) (file : TreeFile) : Prop where
  name : Zip.IsProperName file.path
  contents : (∃ bytes, file.bytes? = some bytes ∧ bytes.size ≤ 40000) ∨
    ∃ task image, renderer.Finds file task image ∧ image.width ≤ 64 ∧ image.height ≤ 64

theorem IsSmall.canRender {file : TreeFile} (small : IsSmall renderer file) :
    renderer.CanRender Memo file := by
  obtain ⟨bytes, holds, -⟩ | ⟨task, image, finds, -⟩ := small.contents
  · exact Renderer.canRender_of_finished (by rw [holds]; rfl)
  · exact finds.canRender

theorem IsSmall.size_le {file done : TreeFile} (small : IsSmall renderer file)
    (isStored : renderer.compress = Zlib.encode) (rendered : Rendered renderer file done)
    {bytes : ByteArray} (holds : done.bytes? = some bytes) : bytes.size ≤ 40000 := by
  obtain ⟨document, isDocument, short⟩ | ⟨task, image, finds, narrow, low⟩ := small.contents
  · obtain rfl := Option.some.inj ((rendered.kept document isDocument).symm.trans holds)
    exact short
  · obtain ⟨painted, texture, isTexture, paints, sides⟩ := finds.exists_paints rendered
    obtain rfl := Option.some.inj (isTexture.symm.trans holds)
    exact paints.size_le isStored (sides.width ▸ narrow) (sides.height ▸ low)

theorem exists_ofSpecification (planned : Plan.ofSpecification spec settings = .ok plan)
    (small : ∀ file ∈ plan.files, IsSmall (Build.renderer Zlib.encode settings source) file)
    (few : plan.files.length ≤ 1000) (cap : settings.theme.retryCap ≤ 1000) :
    ∃ build, ofSpecification Zlib.encode spec settings source = .ok build ∧
      build.catalog = plan.catalog ∧
      List.Forall₂ (Rendered (Build.renderer Zlib.encode settings source))
        plan.files build.files ∧
      Zip.Stores (Zip.encode (Archive.sort (entriesOf build.files)))
        (Archive.sort (entriesOf build.files)) := by
  have cost : (Build.renderer Zlib.encode settings source).mostCost ≤ 1006 :=
    Nat.add_le_add_right (UInt32.le_iff_toNat_le.1 cap) 6
  obtain ⟨build, built⟩ := @exists_ofPlan Zlib.encode source plan settings
    (fun file isFile => (small file isFile).canRender)
    ((Nat.mul_le_mul few cost).trans_lt (by decide))
  rw [← ofSpecification_eq_ofPlan planned] at built
  obtain ⟨_, plannedToo, catalog, -, rendered⟩ := ofSpecification_eq_ok built
  obtain rfl := Except.ok.inj (planned.symm.trans plannedToo)
  obtain ⟨-, each⟩ := entriesOf_eq_ok rendered
  have ofEntry : ∀ entry ∈ entriesOf build.files,
      Zip.IsProperName entry.1 ∧ entry.2.size ≤ 40000 := by
    intro entry isEntry
    obtain ⟨file, isFile, path, done, ofFile, holds⟩ := Outcome.exists_of_forall₂ each isEntry
    exact ⟨path ▸ (small file isFile).name, (small file isFile).size_le rfl ofFile holds⟩
  have count : (entriesOf build.files).length ≤ 1000 := each.length_eq ▸ few
  have fits : Zip.Fits (entriesOf build.files) :=
    Zip.fits_of_short (fun entry isEntry => (ofEntry entry isEntry).1)
      (fun entry isEntry => (ofEntry entry isEntry).2) (count.trans_lt (by decide))
      ((Nat.mul_le_mul_right _ count).trans_lt (by decide))
  exact ⟨build, built, catalog, rendered, (fits.perm (Archive.sort_perm _).symm).stores⟩

end Small

end Build

namespace Archive.Renders

variable {renderer : Renderer} {archive : Archive} {files : List TreeFile}

/-- A listed name is the path of a file. -/
theorem exists_file (renders : archive.Renders renderer files) {name : String}
    (isName : name ∈ archive.names) : ∃ file ∈ files, file.path = name :=
  List.mem_map.1 ((renders.names name).1 isName).1

/-- The bytes of a finished file are returned. -/
theorem entry_finished (renders : archive.Renders renderer files) {file : TreeFile}
    (isFile : file ∈ files) {bytes : ByteArray} (holds : file.bytes? = some bytes) :
    archive.entry file.path = .ok (file.path, bytes) := by
  obtain ⟨done, other, ofFile, otherHolds, read⟩ := renders.read file isFile
  obtain rfl : other = bytes := Option.some.inj (otherHolds.symm.trans (ofFile.kept bytes holds))
  rw [entry, read]
  rfl

/-- A file that is no folder is contained. -/
theorem contains_path (renders : archive.Renders renderer files) {file : TreeFile}
    (isFile : file ∈ files) (noFolder : isFolderName file.path = false) :
    archive.contains file.path = true :=
  contains_iff.2 ((renders.names _).2 ⟨List.mem_map_of_mem isFile, noFolder⟩)

end Archive.Renders

/-! ## A door and a sign -/

/-- A mod of a door, a sign and a recipe. The faces of the door are copied from an asset if there is
one. -/
def Specification.doorAndSign : Specification :=
  { modId := "ab"
    blocks := [
      { entity :=
        { id := "red_door", color := some "#080808", copies := ["minecraft:block/tile"] } },
      { entity := { id := "red_sign", color := some "#080808" } }]
    recipes := [.shapeless { ingredients := ["minecraft:stick"], result := "red_door" }] }

/-- Whether a task asks for a face of the door. -/
def TextureTask.IsFace (task : TextureTask) : Prop :=
  task.source = .copies ["minecraft:block/tile"] ∧ task.role = .block

instance (task : TextureTask) : Decidable task.IsFace := inferInstanceAs (Decidable (_ ∧ _))

/-- Whether a file is a document or a dark texture, with a proper name. -/
def TreeFile.isOfDoorAndSign (file : TreeFile) : Bool :=
  Zip.IsProperName file.path &&
    match file.contents, file.task with
    | .text _, none => true
    | .placeholder, some task => task.IsDark && (task.source = .procedural || task.IsFace)
    | _, _ => false

/-- The door and the sign are there, and no document of theirs is long. -/
theorem Specification.exists_doorAndSign :
    ∃ catalog, Specification.doorAndSign.expand = .ok catalog ∧
      (∃ block ∈ catalog.blocks, block.shape = .door ∧
        block.entity.source = .copies ["minecraft:block/tile"]) ∧
      (∃ block ∈ catalog.blocks, block.shape = .sign) ∧
      ∀ json ∈ catalog.documents, json.room 0 < 40000 :=
  ⟨_, rfl, by decide +kernel, by decide +kernel, by decide +kernel⟩

/-- The door and the sign can be planned. -/
theorem Plan.exists_doorAndSign :
    ∃ plan, ofSpecification .doorAndSign {} = .ok plan ∧ plan.files.length ≤ 1000 ∧
      ∀ file ∈ plan.files, file.isOfDoorAndSign = true := by
  obtain ⟨catalog, expanded, files, unsorted, filed, reordered, few, each⟩ :
      ∃ catalog, Specification.doorAndSign.expand = .ok catalog ∧ ∃ files unsorted,
        filesOf catalog {} = .ok files ∧ files.Perm unsorted ∧
        unsorted.length ≤ 1000 ∧ ∀ file ∈ unsorted, file.isOfDoorAndSign = true :=
    ⟨_, rfl, exists_filesOf rfl rfl (by decide +kernel) ⟨by decide +kernel, by decide +kernel⟩⟩
  exact ⟨⟨catalog, files⟩, ofSpecification_eq_ok.2 ⟨expanded, filed⟩,
    reordered.length_eq ▸ few, fun file isFile => each file (reordered.mem_iff.1 isFile)⟩

/-- The mod has a door with copied faces and a sign, and no document of it is long. -/
theorem Plan.blocks_doorAndSign {plan : Plan}
    (planned : ofSpecification .doorAndSign {} = .ok plan) :
    (∃ block ∈ plan.catalog.blocks, block.shape = .door ∧
      block.entity.source = .copies ["minecraft:block/tile"]) ∧
    ∃ block ∈ plan.catalog.blocks, block.shape = .sign := by
  obtain ⟨catalog, expanded, door, sign, -⟩ := Specification.exists_doorAndSign
  obtain rfl := Except.ok.inj (expanded.symm.trans (ofSpecification_eq_ok.1 planned).1)
  exact ⟨door, sign⟩

theorem Plan.isSmall_of_doorAndSign {plan : Plan}
    (planned : ofSpecification .doorAndSign {} = .ok plan)
    {source : AssetSource}
    (face : ∀ file task, file.bytes? = none → file.task = some task → task.IsDark → task.IsFace →
      ∃ image, (Build.renderer Zlib.encode {} source).Finds file task image ∧
        image.width ≤ 64 ∧ image.height ≤ 64)
    {file : TreeFile} (isPart : file ∈ plan.files) (isFile : file.isOfDoorAndSign = true) :
    Build.IsSmall (Build.renderer Zlib.encode {} source) file := by
  rw [TreeFile.isOfDoorAndSign, Bool.and_eq_true, decide_eq_true_eq] at isFile
  obtain ⟨name, isFile⟩ := isFile
  refine ⟨name, ?_⟩
  split at isFile
  · next text isText _ =>
    obtain ⟨catalog, expanded, -, -, short⟩ := Specification.exists_doorAndSign
    obtain rfl := Except.ok.inj (expanded.symm.trans (ofSpecification_eq_ok.1 planned).1)
    obtain ⟨json, isDocument, rfl⟩ := exists_document planned isPart isText
    exact .inl ⟨_, by rw [TreeFile.bytes?, isText],
      (Json.size_pretty_le json).trans (short json isDocument)⟩
  · next task placeholder isTask =>
    have holds : file.bytes? = none := by rw [TreeFile.bytes?, placeholder]
    simp only [Bool.and_eq_true, Bool.or_eq_true, decide_eq_true_eq] at isFile
    obtain ⟨isDark, procedural | isFace⟩ := isFile
    · obtain ⟨-, -, -, -, narrow, low⟩ := id isDark
      refine .inr ⟨task, _, isDark.finds rfl holds isTask fun found => ?_, narrow, low⟩
      rw [Origin.asset?, procedural]
    · obtain ⟨image, finds, small⟩ := face file task holds isTask isDark isFace
      exact .inr ⟨task, image, finds, small⟩
  · cases isFile

/-- The door and the sign are built from assets that give the faces of the door, and the archive is
read back. -/
theorem Build.exists_doorAndSign {source : AssetSource}
    (face : ∀ file task, file.bytes? = none → file.task = some task → task.IsDark → task.IsFace →
      ∃ image, (Build.renderer Zlib.encode {} source).Finds file task image ∧
        image.width ≤ 64 ∧ image.height ≤ 64) :
    ∃ plan build, Plan.ofSpecification .doorAndSign {} = .ok plan ∧
      ofSpecification Zlib.encode .doorAndSign {} source = .ok build ∧
      build.catalog = plan.catalog ∧
      List.Forall₂ (Rendered (Build.renderer Zlib.encode {} source)) plan.files build.files ∧
      Zip.Stores (Zip.encode (Archive.sort (entriesOf build.files)))
        (Archive.sort (entriesOf build.files)) := by
  obtain ⟨plan, planned, few, each⟩ := Plan.exists_doorAndSign
  obtain ⟨build, built, catalog, rendered, stores⟩ := exists_ofSpecification planned
    (fun file isFile => Plan.isSmall_of_doorAndSign planned face isFile (each file isFile)) few
    (by decide)
  exact ⟨plan, build, planned, built, catalog, rendered, stores⟩

/-- Without assets the faces of the door are synthesized. -/
theorem TextureTask.IsDark.exists_finds_empty (file : TreeFile) (task : TextureTask)
    (holds : file.bytes? = none) (isTask : file.task = some task) (isDark : task.IsDark)
    (isFace : task.IsFace) :
    ∃ image, (Build.renderer Zlib.encode {} .empty).Finds file task image ∧
      image.width ≤ 64 ∧ image.height ≤ 64 := by
  obtain ⟨-, -, -, -, narrow, low⟩ := id isDark
  refine ⟨_, isDark.finds rfl holds isTask fun found => ?_, narrow, low⟩
  rw [Origin.asset?, isFace.1]
  rfl

end Blockwright
