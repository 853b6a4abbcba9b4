import Mathlib
import Blockwright.Rendering.Texture

/-!
# The memory of a run

A run remembers for each block what the source says about it, from the first time that the block is
looked up. It therefore renders as if it looked up every block afresh, and what it remembers is
determined by the blocks that were looked up.
-/

namespace Blockwright

/-- The run with a memory of all blocks that a run without one has looked up. -/
def Run.remembered (run : Run Lookups) (source : AssetSource) : Run Memo where
  gallery := run.gallery
  memory := ⟨run.memory.blocks.dedup.map fun block => (block, Dependencies.ofBlock source block)⟩
  tally := run.tally

variable {source : AssetSource}

/-- What is known about a block is what the source says, and it is known if the block has been
looked up. -/
theorem Run.lookup_remembered (run : Run Lookups) (source : AssetSource) (block : String) :
    (run.remembered source).memory.known.lookup block =
      if block ∈ run.memory.blocks then some (Dependencies.ofBlock source block) else none := by
  have each : ∀ blocks : List String,
      (blocks.map fun block => (block, Dependencies.ofBlock source block)).lookup block =
        if block ∈ blocks then some (Dependencies.ofBlock source block) else none := by
    intro blocks
    induction blocks with
    | nil => rfl
    | cons first rest ih =>
      rw [List.map_cons, List.lookup_cons, ih]
      by_cases same : block = first
      · simp [same]
      · simp [same, beq_eq_false_iff_ne.2 same]
  rw [remembered, each]
  simp only [List.mem_dedup]

theorem Run.consult_remembered (run : Run Lookups) (source : AssetSource)
    (texture : TextureSource) :
    (run.remembered source).consult source texture =
      ((run.consult source texture).1, (run.consult source texture).2.remembered source) := by
  cases texture with
  | procedural => rfl
  | copies locations => rfl
  | template block =>
    have isKnown := run.lookup_remembered source block
    simp only [consult, BlockMemory.consult, Memo.consult, isKnown]
    by_cases old : block ∈ run.memory.blocks
    · simp only [if_pos old, remembered, List.dedup_cons_of_mem old]
    · simp only [if_neg old, remembered, List.dedup_cons_of_notMem old, List.map_cons]

namespace Renderer

variable (renderer : Renderer)

/-! ## Rendering with a memory -/

theorem paint_remembered (path : String) (task : TextureTask) (origin : Origin) (image : Image)
    (run : Run Lookups) :
    renderer.paint path task origin image (run.remembered source) =
      ((renderer.paint path task origin image run).1,
        (renderer.paint path task origin image run).2.remembered source) := by
  simp only [paint, Run.remembered]
  cases Theme.themed? renderer.settings image (Hue.ofEntity task.color task.hueKey) path
    run.gallery with
  | none => rfl
  | some made =>
    obtain ⟨themed, gallery⟩ := made
    dsimp only
    cases renderer.finish path themed.image with
    | error error => rfl
    | ok finished =>
      obtain ⟨bytes, warnings⟩ := finished
      dsimp only
      cases run.tally.add? origin themed.attempts warnings <;> rfl

theorem texture_remembered (path : String) (task : TextureTask) (run : Run Lookups) :
    renderer.texture path task (run.remembered renderer.source) =
      ((renderer.texture path task run).1,
        (renderer.texture path task run).2.remembered renderer.source) := by
  rw [texture, texture, Run.consult_remembered]
  dsimp only
  cases Origin.image renderer.compress renderer.source
    (run.consult renderer.source task.source).1 path task with
  | error error => rfl
  | ok made => exact renderer.paint_remembered path task made.1 made.2 _

theorem file_remembered (file : TreeFile) (run : Run Lookups) :
    renderer.file file (run.remembered renderer.source) =
      ((renderer.file file run).1, (renderer.file file run).2.remembered renderer.source) := by
  obtain ⟨path, contents, task⟩ := file
  cases contents with
  | text value => rfl
  | binary bytes => rfl
  | placeholder =>
    cases task with
    | none => rfl
    | some task => simp only [Renderer.file, texture_remembered]

theorem files_remembered (files : List TreeFile) (run : Run Lookups) :
    renderer.files files (run.remembered renderer.source) =
      ((renderer.files files run).1, (renderer.files files run).2.remembered renderer.source) := by
  induction files generalizing run with
  | nil => rfl
  | cons next rest ih =>
    rw [Renderer.files, Renderer.files, file_remembered]
    cases renderer.file next run with
    | mk outcome middle =>
      cases outcome with
      | error error => rfl
      | ok done =>
        dsimp only
        rw [ih]

theorem render_remembered (batch : List TreeFile) (run : Run Lookups) :
    renderer.render batch (run.remembered renderer.source) =
      ((renderer.render batch run).1,
        (renderer.render batch run).2.remembered renderer.source) := by
  rw [render, render, files_remembered]
  cases renderer.files batch run with
  | mk outcome after => cases outcome <;> rfl

/-! ## Batches -/

/-- The outcome of each of several batches in one run, and the run behind it. The settings may
change from batch to batch. -/
def renderEach {μ : Type} [BlockMemory μ] (renderer : Renderer) :
    List (ThemeSettings × List TreeFile) → Run μ →
      List (Except RenderError (List TreeFile) × Run μ)
  | [], _ => []
  | (settings, batch) :: rest, run =>
    let result := { renderer with settings }.render batch run
    result :: renderEach renderer rest result.2

/-- Whether a batch ends alike with a memory and without one, and what is remembered then is what
the source says about the blocks that were looked up. -/
structure EndsAlike (source : AssetSource) (kept : Except RenderError (List TreeFile) × Run Memo)
    (fresh : Except RenderError (List TreeFile) × Run Lookups) : Prop where
  outcome : kept.1 = fresh.1
  gallery : kept.2.gallery = fresh.2.gallery
  tally : kept.2.tally = fresh.2.tally
  known : ∀ block, kept.2.memory.known.lookup block =
    if block ∈ fresh.2.memory.blocks then some (Dependencies.ofBlock source block) else none
  /-- As many blocks are remembered as different ones were looked up. -/
  count : kept.2.memory.known.length = fresh.2.memory.blocks.toFinset.card

theorem endsAlike_remembered (source : AssetSource)
    (fresh : Except RenderError (List TreeFile) × Run Lookups) :
    EndsAlike source (fresh.1, fresh.2.remembered source) fresh where
  outcome := rfl
  gallery := rfl
  tally := rfl
  known := fresh.2.lookup_remembered source
  count := List.length_map _

theorem endsAlike_renderEach (batches : List (ThemeSettings × List TreeFile))
    (run : Run Lookups) :
    List.Forall₂ (EndsAlike renderer.source)
      (renderer.renderEach batches (run.remembered renderer.source))
      (renderer.renderEach batches run) := by
  induction batches generalizing run with
  | nil => exact .nil
  | cons next rest ih =>
    obtain ⟨settings, batch⟩ := next
    have rendered := render_remembered { renderer with settings } batch run
    rw [renderEach, renderEach, rendered]
    exact .cons (endsAlike_remembered renderer.source _) (ih _)

/-- Batches that are rendered in one run, whether they succeed or fail, end as they would if every
block were looked up in the source afresh. What the run remembers then is what the source says about
the different blocks that were looked up so far. -/
theorem memory_unnoticed (batches : List (ThemeSettings × List TreeFile)) :
    List.Forall₂ (EndsAlike renderer.source) (renderer.renderEach batches Run.start)
      (renderer.renderEach batches Run.start) :=
  renderer.endsAlike_renderEach batches Run.start

end Renderer

end Blockwright
