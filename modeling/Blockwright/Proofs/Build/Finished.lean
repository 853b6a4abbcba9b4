import Blockwright.Proofs.Gate.Checks
import Blockwright.Proofs.Rendering.History

/-!
# Finished builds

A build has the files of its plan, in their order and with their tasks. Only the textures are
filled, each with an image that nothing keeps out, and every file is found by its path.
-/

namespace Blockwright

/-- Whether a file is what rendering makes of a planned one. -/
structure TreeFile.Fills (planned done : TreeFile) : Prop where
  path : done.path = planned.path
  task : done.task = planned.task
  /-- A file that is no texture stays as it is. -/
  kept : planned.isTexture = false → done = planned
  /-- A texture gets an image that can be presented. -/
  filled : planned.isTexture = true →
    ∃ bytes, done.contents = .binary bytes ∧ Png.IsPresentable (Bytes.list bytes)

namespace TreeFile.Fills

variable {planned done : TreeFile}

theorem isTexture (fills : planned.Fills done) : done.isTexture = planned.isTexture := by
  rw [TreeFile.isTexture, fills.path, TreeFile.isTexture]

theorem not_placeholder (fills : planned.Fills done) (isPlanned : planned.IsPlanned) :
    done.contents ≠ .placeholder := by
  intro placeholder
  cases texture : planned.isTexture with
  | true =>
    obtain ⟨bytes, holds, -⟩ := fills.filled texture
    rw [placeholder] at holds
    cases holds
  | false =>
    obtain rfl := fills.kept texture
    have none : done.bytes? = none := by rw [bytes?, placeholder]
    rw [isPlanned.isTexture_iff.2 none] at texture
    cases texture

end TreeFile.Fills

namespace Renderer

variable {μ : Type} [BlockMemory μ] {renderer : Renderer}

theorem fills_of_file {file done : TreeFile} (planned : file.IsPlanned) {run after : Run μ}
    (rendered : renderer.file file run = (.ok done, after)) : file.Fills done := by
  rcases file_cases rendered with ⟨finished, rfl, -⟩ | ⟨none, task, bytes, -, made, rfl⟩
  · refine ⟨rfl, rfl, fun _ => rfl, fun texture => ?_⟩
    rw [planned.isTexture_iff.1 texture] at finished
    cases finished
  · have texture := planned.isTexture_iff.2 none
    obtain ⟨_, _, _, _, _, -, -, finished⟩ := texture_cases made
    obtain ⟨encoded, valid⟩ := finish_cases finished
    refine ⟨rfl, rfl, fun noTexture => ?_, fun _ => ⟨bytes, rfl, ?_⟩⟩
    · rw [texture] at noTexture
      cases noTexture
    · exact Png.isPresentable_of_encodeWith encoded valid

theorem fills_of_files {files done : List TreeFile} (planned : ∀ file ∈ files, file.IsPlanned)
    {run after : Run μ} (rendered : renderer.files files run = (.ok done, after)) :
    List.Forall₂ TreeFile.Fills files done :=
  forall₂_of_files (fun file isFile _ _ _ => fills_of_file (planned file isFile)) rendered

end Renderer

namespace Build

variable {compress : List UInt8 → List UInt8} {spec : Specification} {settings : Settings}
  {source : AssetSource} {build : Build}

theorem file?_eq_some (ascends : (build.files.map TreeFile.path).Pairwise (· < ·)) {path : String}
    {file : TreeFile} :
    build.file? path = some file ↔ file ∈ build.files ∧ file.path = path :=
  Bisection.find?_eq_some ascends

/-- A build has the paths of its plan, strictly ascending, and its tasks. Documents are as they are
planned, no placeholder remains, a file is found exactly at the path of one, and every image can be
presented. -/
theorem finished_files (built : ofSpecification compress spec settings source = .ok build) :
    ∃ plan, Plan.ofSpecification spec settings = .ok plan ∧
      build.files.map TreeFile.path = plan.files.map TreeFile.path ∧
      (build.files.map TreeFile.path).Pairwise (· < ·) ∧
      build.files.map TreeFile.task = plan.files.map TreeFile.task ∧
      List.Forall₂ (fun planned done => planned.isTexture = false → done = planned)
        plan.files build.files ∧
      (∀ file ∈ build.files, file.contents ≠ .placeholder) ∧
      (∀ path file, build.file? path = some file ↔ file ∈ build.files ∧ file.path = path) ∧
      (∀ path, (build.file? path).isSome = true ↔ path ∈ plan.files.map TreeFile.path) ∧
      ∀ file ∈ build.files, (∃ front, file.path = front ++ ".png") →
        ∃ bytes, file.bytes? = some bytes ∧ Png.IsPresentable (Bytes.list bytes) := by
  obtain ⟨plan, run, planned, rendered, -⟩ := ofSpecification_cases built
  obtain ⟨last, filesOk, -⟩ := Renderer.render_cases rendered
  have isPlanned := Plan.isPlanned_of_mem planned
  have fills := Renderer.fills_of_files isPlanned filesOk
  have paths : build.files.map TreeFile.path = plan.files.map TreeFile.path :=
    Outcome.map_eq_map_of_forall₂ fills.flip fun _ _ fills => fills.path
  have ascends : (build.files.map TreeFile.path).Pairwise (· < ·) :=
    paths ▸ Plan.pairwise_path planned
  refine ⟨plan, planned, paths, ascends,
    Outcome.map_eq_map_of_forall₂ fills.flip fun _ _ fills => fills.task,
    fills.imp fun _ _ fills => fills.kept, ?_, fun path file => file?_eq_some ascends, ?_, ?_⟩
  · intro file isFile
    obtain ⟨plannedFile, isPlannedFile, fills⟩ := Outcome.exists_of_forall₂ fills isFile
    exact fills.not_placeholder (isPlanned plannedFile isPlannedFile)
  · intro path
    simp only [Option.isSome_iff_exists, file?_eq_some ascends, ← paths, List.mem_map]
  · rintro file isFile isImage
    obtain ⟨plannedFile, -, fills⟩ := Outcome.exists_of_forall₂ fills isFile
    obtain ⟨bytes, holds, presentable⟩ :=
      fills.filled (fills.isTexture ▸ Text.isSuffixOf_iff.2 isImage)
    exact ⟨bytes, by rw [TreeFile.bytes?, holds], presentable⟩

/-- The placeholder for a face of a door is filled. -/
theorem finished_files_door :
    ∃ build plan planned done, ofSpecification Zlib.encode .doorAndSign {} .empty = .ok build ∧
      Plan.ofSpecification .doorAndSign {} = .ok plan ∧
      build.files.map TreeFile.path = plan.files.map TreeFile.path ∧
      planned ∈ plan.files ∧ planned.contents = .placeholder ∧
      build.file? planned.path = some done ∧
      ∃ bytes, done.bytes? = some bytes ∧ Png.IsPresentable (Bytes.list bytes) := by
  obtain ⟨plan, build, planned, built, -⟩ :=
    exists_doorAndSign TextureTask.IsDark.exists_finds_empty
  obtain ⟨⟨door, isDoor, shape, -⟩, -⟩ := Plan.blocks_doorAndSign planned
  obtain ⟨_, plannedToo, paths, -, -, -, -, found, listed, images⟩ := finished_files built
  obtain rfl := Except.ok.inj (planned.symm.trans plannedToo)
  obtain ⟨expanded, filed⟩ := Plan.ofSpecification_eq_ok.1 planned
  have isFace := Plan.face_mem_filesOf expanded filed isDoor
    (show "_bottom" ∈ door.shape.textures by rw [shape]; decide)
  obtain ⟨done, isDone⟩ :=
    Option.isSome_iff_exists.1 ((listed _).2 (List.mem_map_of_mem isFace))
  obtain ⟨isFile, path⟩ := (found _ done).1 isDone
  exact ⟨build, plan, _, done, built, planned, paths, isFace, rfl, isDone,
    images done isFile ⟨_, path⟩⟩

end Build

end Blockwright
