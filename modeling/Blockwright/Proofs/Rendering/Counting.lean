import Blockwright.Proofs.Rendering.Counters

/-!
# Counts of runs

The tally of a run and the counts of its gallery are kept at different moments, and a texture that
fails is counted in the gallery only. Still the origins add up to the textures, and no retry and no
duplicate is counted without a collision.
-/

namespace Blockwright

/-- Number of placeholders among files. -/
def TreeFile.placeholders (files : List TreeFile) : Nat :=
  files.countP fun file => file.bytes?.isNone

theorem TreeFile.placeholders_append (front rest : List TreeFile) :
    placeholders (front ++ rest) = placeholders front + placeholders rest :=
  List.countP_append

/-! ## Runs -/

namespace Run

variable {μ : Type} {run middle after : Run μ} {first second : Nat}

/-- Whether the counts of a run fit together. -/
structure Consistent (run : Run μ) : Prop where
  isSum : run.tally.textures.toNat =
    run.tally.copied.toNat + run.tally.templated.toNat + run.tally.synthesized.toNat
  retried_textures : run.tally.retried.toNat ≤ run.tally.textures.toNat
  retried_collisions : run.tally.retried.toNat ≤ run.gallery.collisions.toNat
  exhausted_collisions : run.gallery.exhausted.toNat ≤ run.gallery.collisions.toNat

/-- Whether a run goes on with consistent counts and a number of textures more. -/
structure Advances (run : Run μ) (made : Nat) (after : Run μ) : Prop where
  textures : after.tally.textures.toNat = run.tally.textures.toNat + made
  consistent : run.Consistent → after.Consistent

theorem consistent_start [BlockMemory μ] : (Run.start : Run μ).Consistent :=
  ⟨rfl, le_rfl, le_rfl, le_rfl⟩

theorem Advances.refl (run : Run μ) : run.Advances 0 run := ⟨rfl, id⟩

theorem Advances.trans (before : run.Advances first middle)
    (behind : middle.Advances second after) :
    run.Advances (first + second) after where
  textures := by rw [behind.textures, before.textures, Nat.add_assoc]
  consistent := behind.consistent ∘ before.consistent

/-- Counts still fit together after amounts that do so themselves. -/
theorem Spends.advances {cost : Counter → Nat} (spends : run.Spends cost after)
    (isSum : cost .textures =
      cost (.origin .copied) + cost (.origin .templated) + cost (.origin .synthesized))
    (retried_textures : cost .retried ≤ cost .textures)
    (retried_collisions : cost .retried ≤ cost .collisions)
    (exhausted_collisions : cost .exhausted ≤ cost .collisions) :
    run.Advances (cost .textures) after := by
  have collisions := spends .collisions
  have exhausted := spends .exhausted
  have textures := spends .textures
  have copied := spends (.origin .copied)
  have templated := spends (.origin .templated)
  have synthesized := spends (.origin .synthesized)
  have retried := spends .retried
  simp only [count] at collisions exhausted textures retried
  simp only [count, Tally.ofOrigin] at copied templated synthesized
  refine ⟨textures, fun consistent => ?_⟩
  obtain ⟨sum, ofTextures, ofCollisions, ofExhausted⟩ := consistent
  constructor <;> omega

theorem Spends.advances_themed {themed : Themed} (spends : run.Spends themed.cost after) :
    run.Advances 0 after :=
  spends.advances rfl le_rfl (Nat.zero_le _) (Nat.le_add_left _ _)

/-- A finished texture is counted once, for its origin, and as retried only if it is in a
collision. -/
theorem Spends.advances_texture {themed : Themed} {origin : Origin} {warnings : Nat}
    (spends : run.Spends (themed.cost + Tally.cost origin themed.attempts warnings) after) :
    run.Advances 1 after := by
  refine spends.advances ?_ ?_ ?_ ?_
  · cases origin <;> rfl
  · change 0 + (if 0 < themed.attempts then 1 else 0) ≤ 0 + 1
    split <;> omega
  · change 0 + (if 0 < themed.attempts then 1 else 0) ≤ themed.collisions + 0
    rw [Themed.collisions]
    split <;> omega
  · exact Nat.add_le_add_right (Nat.le_add_left themed.duplicates themed.attempts) 0

end Run

namespace Renderer

variable {μ : Type} {renderer : Renderer} {run after : Run μ} {path : String} {task : TextureTask}
  {origin : Origin} {image : Image}

theorem advances_paint {outcome : Except RenderError ByteArray}
    (painted : renderer.paint path task origin image run = (outcome, after)) :
    run.Advances outcome.isOk.toNat after := by
  rw [paint] at painted
  dsimp only at painted
  split at painted
  · cases painted
    exact .refl run
  · next themed gallery made =>
    have spends := Run.spends_themed made
    split at painted
    · cases painted
      exact spends.advances_themed
    · split at painted
      · cases painted
        exact spends.advances_themed
      · next tally counted =>
        cases painted
        have more : Run.Spends { run with gallery } _ { run with gallery, tally } :=
          Run.spends_add? counted
        exact (spends.trans more).advances_texture

variable [BlockMemory μ]

theorem advances_texture {outcome : Except RenderError ByteArray}
    (made : renderer.texture path task run = (outcome, after)) :
    run.Advances outcome.isOk.toNat after := by
  have consulted : run.Advances 0 (run.consult renderer.source task.source).2 :=
    (run.spends_consult renderer.source task.source).advances rfl le_rfl le_rfl le_rfl
  rw [texture] at made
  dsimp only at made
  split at made
  · cases made
    exact consulted
  · have painted := consulted.trans (advances_paint made)
    rwa [Nat.zero_add] at painted

theorem advances_file {file done : TreeFile}
    (rendered : renderer.file file run = (.ok done, after)) :
    run.Advances (TreeFile.placeholders [file]) after := by
  rcases file_cases rendered with ⟨finished, -, rfl⟩ | ⟨none, task, bytes, -, made, -⟩
  · have uncounted : TreeFile.placeholders [file] = 0 := by
      simp [TreeFile.placeholders, Option.isSome_iff_ne_none.1 finished]
    rw [uncounted]
    exact .refl after
  · have counted : TreeFile.placeholders [file] = 1 := by simp [TreeFile.placeholders, none]
    rw [counted]
    exact advances_texture made

theorem advances_file_error {file : TreeFile} {error : RenderError}
    (failed : renderer.file file run = (.error error, after)) : run.Advances 0 after := by
  rw [Renderer.file] at failed
  split at failed
  · cases failed
    exact .refl run
  · dsimp only at failed
    rw [Prod.mk.injEq, Outcome.map_eq_error] at failed
    exact advances_texture (Prod.ext failed.1 failed.2)
  · cases failed

/-! ## Batches -/

theorem advances_files {files done : List TreeFile}
    (rendered : renderer.files files run = (.ok done, after)) :
    run.Advances (TreeFile.placeholders files) after := by
  induction files generalizing run done with
  | nil =>
    cases rendered
    exact .refl _
  | cons next rest ih =>
    obtain ⟨first, middle, others, firstOk, othersOk, -⟩ := files_cons_eq_ok rendered
    rw [← List.singleton_append, TreeFile.placeholders_append]
    exact (advances_file firstOk).trans (ih othersOk)

theorem files_eq_error {files : List TreeFile} {error : RenderError}
    (failed : renderer.files files run = (.error error, after)) :
    ∃ front file rest done middle, files = front ++ file :: rest ∧
      renderer.files front run = (.ok done, middle) ∧
      renderer.file file middle = (.error error, after) ∧
      run.Advances (TreeFile.placeholders front) after := by
  induction files generalizing run with
  | nil => cases failed
  | cons next rest ih =>
    cases first : (renderer.file next run).1 with
    | error found =>
      rw [files_cons_error first] at failed
      cases failed
      have fails : renderer.file next run = (.error error, _) := Prod.ext first rfl
      exact ⟨[], next, rest, [], run, rfl, rfl, fails, advances_file_error fails⟩
    | ok done =>
      rw [files_cons_ok first, Prod.mk.injEq, Outcome.map_eq_error] at failed
      obtain ⟨front, file, behind, others, middle, rfl, frontOk, fails, advances⟩ :=
        ih (Prod.ext failed.1 failed.2)
      refine ⟨next :: front, file, behind, done :: others, middle, rfl, ?_, fails, ?_⟩
      · rw [files_cons_ok first, frontOk]
        rfl
      · rw [← List.singleton_append, TreeFile.placeholders_append]
        exact (advances_file (Prod.ext first rfl)).trans advances

/-- Whether an outcome of a batch is counted: all its placeholders if it succeeds, and the tally is
then settled, but only those before the file that fails if it does not. -/
inductive Counts (renderer : Renderer) (batch : List TreeFile) (run : Run μ) :
    Except RenderError (List TreeFile) × Run μ → Prop where
  | done {files : List TreeFile} {after : Run μ}
      (textures : after.tally.textures.toNat =
        run.tally.textures.toNat + TreeFile.placeholders batch)
      (collisions : after.tally.collisions = after.gallery.collisions)
      (exhausted : after.tally.exhausted = after.gallery.exhausted) :
      Counts renderer batch run (.ok files, after)
  | failed {front rest done : List TreeFile} {file : TreeFile} {middle after : Run μ}
      {error : RenderError} (isBatch : batch = front ++ file :: rest)
      (reached : renderer.files front run = (.ok done, middle))
      (fails : renderer.file file middle = (.error error, after))
      (textures : after.tally.textures.toNat =
        run.tally.textures.toNat + TreeFile.placeholders front) :
      Counts renderer batch run (.error error, after)

theorem counts_render (renderer : Renderer) (batch : List TreeFile) (run : Run μ) :
    renderer.Counts batch run (renderer.render batch run) ∧
      (run.Consistent → (renderer.render batch run).2.Consistent) := by
  cases result : renderer.files batch run with
  | mk outcome after =>
    rw [render, result]
    cases outcome with
    | ok done =>
      have advances := advances_files result
      exact ⟨.done advances.textures rfl rfl, fun consistent =>
        { advances.consistent consistent with }⟩
    | error error =>
      obtain ⟨front, file, rest, done, middle, isBatch, reached, fails, advances⟩ :=
        files_eq_error result
      exact ⟨.failed isBatch reached fails advances.textures, advances.consistent⟩

theorem consistent_renderAll (consistent : run.Consistent)
    (batches : List (Renderer × List TreeFile)) : (renderAll batches run).Consistent := by
  induction batches generalizing run with
  | nil => exact consistent
  | cons next rest ih => exact ih ((counts_render next.1 next.2 run).2 consistent)

/-- The counts of a run fit together after any batches, and every further batch is counted. -/
theorem consistent_counts (batches : List (Renderer × List TreeFile)) (renderer : Renderer)
    (batch : List TreeFile) :
    let run : Run μ := renderAll batches .start
    run.Consistent ∧ renderer.Counts batch run (renderer.render batch run) :=
  ⟨consistent_renderAll Run.consistent_start batches, (counts_render renderer batch _).1⟩

end Renderer

end Blockwright
