import Blockwright.Proofs.Plan.Placeholders
import Blockwright.Proofs.Rendering.Rendered
import Blockwright.Proofs.Theme.History

/-!
# Histories of rendering

Rendering the files of a plan themes its textures in their order, each for the path that it has,
and finishes the themed images.
-/

namespace Blockwright

/-- Whether a file is the finished texture of a themed image. -/
def TreeFile.Portrays (renderer : Renderer) (file : TreeFile) (themed : Themed) : Prop :=
  ∃ bytes warnings, file.contents = .binary bytes ∧
    renderer.finish file.path themed.image = .ok (bytes, warnings)

/-- Whether a call themes what the texture of a file is made from. -/
structure TreeFile.Calls (renderer : Renderer) (file : TreeFile) (call : Theme.Call) : Prop where
  settings : call.settings = renderer.settings
  owner : call.owner = file.path
  made : ∃ task found origin, file.task = some task ∧
    Origin.image renderer.compress renderer.source found file.path task =
      .ok (origin, call.source) ∧
    call.hue = Hue.ofEntity task.color task.hueKey

namespace Renderer

variable {μ : Type} [BlockMemory μ] {renderer : Renderer}

/-- The textures of planned files are the themed images of calls, one for each of them. -/
theorem files_history {files done : List TreeFile} (planned : ∀ file ∈ files, file.IsPlanned)
    {run after : Run μ} (rendered : renderer.files files run = (.ok done, after)) :
    ∃ (calls : List Theme.Call) (results : List Themed),
      List.Forall₂ (TreeFile.Calls renderer) (files.filter TreeFile.isTexture) calls ∧
      Theme.themedAll? calls run.gallery = some (results, after.gallery) ∧
      List.Forall₂ (TreeFile.Portrays renderer) (done.filter TreeFile.isTexture) results := by
  induction files generalizing run done with
  | nil =>
    cases rendered
    exact ⟨[], [], .nil, rfl, .nil⟩
  | cons next rest ih =>
    obtain ⟨nextPlanned, restPlanned⟩ := List.forall_mem_cons.1 planned
    obtain ⟨first, middle, others, firstOk, othersOk, rfl⟩ := files_cons_eq_ok rendered
    obtain ⟨calls, results, called, themed, portrays⟩ := ih restPlanned othersOk
    rcases file_cases firstOk with ⟨finished, rfl, rfl⟩ | ⟨none, task, bytes, isTask, made, rfl⟩
    · have noTexture : first.isTexture = false := by
        rw [← Bool.not_eq_true, nextPlanned.isTexture_iff]
        intro none
        simp [none] at finished
      rw [List.filter_cons_of_neg (by simp [noTexture]),
        List.filter_cons_of_neg (by simp [noTexture])]
      exact ⟨calls, results, called, themed, portrays⟩
    · have isTexture : next.isTexture = true := nextPlanned.isTexture_iff.2 none
      obtain ⟨found, origin, image, result, warnings, isImage, isThemed, finished⟩ :=
        texture_cases made
      have doneTexture : ({ next with contents := .binary bytes } : TreeFile).isTexture = true :=
        isTexture
      rw [List.filter_cons_of_pos isTexture, List.filter_cons_of_pos doneTexture]
      exact ⟨⟨renderer.settings, image, Hue.ofEntity task.color task.hueKey, next.path⟩ :: calls,
        result :: results, .cons ⟨rfl, rfl, task, found, origin, isTask, isImage, rfl⟩ called,
        Theme.themedAll?_cons.2 ⟨result, middle.gallery, results, isThemed, themed, rfl⟩,
        .cons ⟨bytes, warnings, rfl, finished⟩ portrays⟩

/-- A batch that is rendered is settled with the gallery of its files. -/
theorem render_cases {batch done : List TreeFile} {run after : Run μ}
    (rendered : renderer.render batch run = (.ok done, after)) :
    ∃ last, renderer.files batch run = (.ok done, last) ∧
      after.tally.exhausted = last.gallery.exhausted := by
  rw [render] at rendered
  split at rendered
  · next filesOk =>
    cases rendered
    exact ⟨_, filesOk, rfl⟩
  · next failed =>
    exact absurd rendered (failed done after)

end Renderer

end Blockwright
