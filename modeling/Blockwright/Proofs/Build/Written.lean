import Blockwright.Proofs.Gate.Opened
import Blockwright.Proofs.Plan.Paths
import Blockwright.Proofs.Tree.Writing

/-!
# Written builds

The paths of a build stay inside the folder that it is written to, and none leads through another.
Below an empty folder a build is therefore written as it is.
-/

namespace Blockwright

namespace Build

variable {compress : List UInt8 → List UInt8} {spec : Specification} {settings : Settings}
  {source : AssetSource} {build : Build}

theorem exists_plan (built : ofSpecification compress spec settings source = .ok build) :
    ∃ plan, Plan.ofSpecification spec settings = .ok plan ∧
      build.files.map TreeFile.path = plan.files.map TreeFile.path ∧
      ∀ file ∈ build.files, file.bytes?.isSome = true := by
  obtain ⟨plan, planned, -, -, each⟩ := ofSpecification_eq_ok built
  refine ⟨plan, planned,
    Outcome.map_eq_map_of_forall₂ each.flip fun _ _ rendered => rendered.path, ?_⟩
  intro file isFile
  obtain ⟨plannedFile, -, rendered⟩ := Outcome.exists_of_forall₂ each isFile
  exact Option.isSome_iff_exists.2 rendered.exists_bytes

/-- The paths of a build stay inside a folder and none leads through another. Below an empty folder
all files are written; the folder then holds and lists exactly the entries of the build, and nothing
has changed elsewhere. -/
theorem written_intact (built : ofSpecification compress spec settings source = .ok build) :
    (∀ file ∈ build.files, Path.isInside file.path = true) ∧
    (∀ file ∈ build.files, ∀ other ∈ build.files, ∀ rest,
      other.path ≠ file.path ++ "/" ++ rest) ∧
    ∀ (disk : Disk) (home place : Place) (folder : String), disk.Opens home folder place →
      disk.IsEmptyFolder place →
        ∃ after, TreeFile.writeAll home folder build.files disk = (none, after) ∧
          after.Holds place (entriesOf build.files) ∧
          (after.filesBelow place).Perm (entriesOf build.files) ∧
          ∀ other, ¬ place <+: other → after.node? other = disk.node? other := by
  obtain ⟨plan, planned, paths, finished⟩ := exists_plan built
  have placed : ∀ file ∈ build.files, Path.IsPlaced file.path := by
    intro file isFile
    obtain ⟨plannedFile, isPlanned, same⟩ :=
      List.mem_map.1 (paths ▸ List.mem_map_of_mem isFile : file.path ∈ plan.files.map TreeFile.path)
    exact same ▸ Plan.isPlaced_of_mem planned plannedFile isPlanned
  have plain : ∀ file ∈ build.files, Path.IsPlain file.path := fun file isFile =>
    (placed file isFile).isPlain
  have apart : (build.files.map TreeFile.path).Pairwise Path.Apart := by
    have different : (build.files.map TreeFile.path).Nodup := paths ▸ Plan.nodup_path planned
    rw [List.pairwise_map]
    refine (List.pairwise_map.1 different).imp_of_mem fun isFile isOther unlike => ?_
    exact Path.apart_of_ne unlike ((placed _ isFile).ne_append (placed _ isOther))
      ((placed _ isOther).ne_append (placed _ isFile))
  exact ⟨fun file isFile => (plain file isFile).isInside,
    fun file isFile other isOther => (placed file isFile).ne_append (placed other isOther),
    fun disk home place folder opens isEmptyFolder =>
      TreeFile.exists_writeAll finished plain apart opens isEmptyFolder⟩

/-- A mod of a door, a sign and a recipe is written to an empty folder. -/
theorem written_intact_doorAndSign :
    let disk : Disk := { nodes := [(["out"], .folder)] }
    ∃ build after, ofSpecification Zlib.encode .doorAndSign {} .empty = .ok build ∧
      disk.Opens [] "out" ["out"] ∧ disk.IsEmptyFolder ["out"] ∧
      TreeFile.writeAll [] "out" build.files disk = (none, after) ∧
      after.Holds ["out"] (entriesOf build.files) := by
  intro disk
  obtain ⟨plan, build, -, built, -⟩ := exists_doorAndSign TextureTask.IsDark.exists_finds_empty
  have opens : disk.Opens [] "out" ["out"] := ⟨.inr rfl, rfl⟩
  have isEmptyFolder : disk.IsEmptyFolder ["out"] := ⟨rfl, by simp [disk]⟩
  obtain ⟨-, -, writes⟩ := written_intact built
  obtain ⟨after, written, holds, -⟩ := writes disk [] ["out"] "out" opens isEmptyFolder
  exact ⟨build, after, built, opens, isEmptyFolder, written, holds⟩

end Build

end Blockwright
