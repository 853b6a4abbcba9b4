import Blockwright.Proofs.Assets.Influence
import Blockwright.Proofs.Rendering.Rendered
import Blockwright.Proofs.Tree.Location
import Blockwright.Tree.Reading

/-!
# What a templated texture depends on

The texture of a template is made from the answer of the source for one of the textures that the
template's block refers to. Files that the block does not refer to make no difference.
-/

namespace Blockwright

/-- The image that a run makes a texture from. -/
def Run.image (run : Run Memo) (compress : List UInt8 → List UInt8) (source : AssetSource)
    (path : String) (task : TextureTask) : Except RenderError (Origin × Image) :=
  Origin.image compress source (run.consult source task.source).1 path task

/-- Whether a run knows nothing about a block but what a source says. -/
def Run.Trusts (run : Run Memo) (source : AssetSource) (block : String) : Prop :=
  ∀ found, run.memory.known.lookup block = some found → found = Dependencies.ofBlock source block

/-- Whether an outcome is what a source says about a texture that is listed for a template: its
image, or else a synthesized one if it is missing, or its fault. -/
inductive Origin.Templates (compress : List UInt8 → List UInt8) (source : AssetSource)
    (found : Dependencies) (path : String) (task : TextureTask) :
    Except RenderError (Origin × Image) → Prop where
  | unlisted (noTextures : found.textures = []) :
      Templates compress source found path task ((synthesize task).map (.synthesized, ·))
  | missing {asset : String} (listed : asset ∈ found.textures)
      (read : source.read asset = .ok none) :
      Templates compress source found path task ((synthesize task).map (.synthesized, ·))
  | unreadable {asset : String} {error : SourceError} (listed : asset ∈ found.textures)
      (read : source.read asset = .error error) :
      Templates compress source found path task (.error (.source error))
  | undecodable {asset : String} {bytes : ByteArray} {error : RenderError}
      (listed : asset ∈ found.textures) (read : source.read asset = .ok (some bytes))
      (decoded : decode compress path asset task.role bytes = .error error) :
      Templates compress source found path task (.error error)
  | present {asset : String} {bytes : ByteArray} {image : Image}
      (listed : asset ∈ found.textures) (read : source.read asset = .ok (some bytes))
      (decoded : decode compress path asset task.role bytes = .ok image) :
      Templates compress source found path task (.ok (.templated, image))

variable {compress : List UInt8 → List UInt8} {source first second : AssetSource}
  {found : Dependencies} {block path : String} {task : TextureTask} {run : Run Memo}

namespace Origin

theorem texture?_eq_none {ending : String} (none : texture? found block ending = none) :
    found.textures = [] := by
  rw [texture?, Option.or_eq_none_iff] at none
  exact List.head?_eq_none_iff.1 none.2

theorem mem_textures {ending asset : String} (taken : texture? found block ending = some asset) :
    asset ∈ found.textures := by
  rw [texture?, Option.or_eq_some_iff] at taken
  rcases taken with matching | ⟨-, isFirst⟩
  · exact List.mem_of_find?_eq_some matching
  · exact List.mem_of_mem_head? isFirst

theorem templates_image (isTemplate : task.source = .template block) :
    Templates compress source found path task (image compress source found path task) := by
  rw [image, asset?, isTemplate]
  dsimp only
  rw [templated?]
  cases taken : texture? found block task.ending with
  | none => exact .unlisted (texture?_eq_none taken)
  | some asset =>
    have listed := mem_textures taken
    dsimp only
    rw [image?]
    cases read : source.read asset with
    | error error => exact .unreadable listed read
    | ok answer =>
      cases answer with
      | none => exact .missing listed read
      | some bytes =>
        dsimp only
        cases decoded : decode compress path asset task.role bytes with
        | error error => exact .undecodable listed read decoded
        | ok image => exact .present listed read decoded

theorem image_congr (isTemplate : task.source = .template block)
    (same : ∀ asset ∈ found.textures, first.read asset = second.read asset) :
    image compress first found path task = image compress second found path task := by
  rw [image, image, asset?, asset?, isTemplate]
  dsimp only
  rw [templated?, templated?]
  cases taken : texture? found block task.ending with
  | none => rfl
  | some asset =>
    dsimp only
    rw [image?, image?, same asset (mem_textures taken)]

end Origin

theorem Run.Trusts.consult_eq (trusts : run.Trusts source block) :
    (run.consult source (.template block)).1 = Dependencies.ofBlock source block := by
  change (Memo.consult source block run.memory).1 = _
  rw [Memo.consult]
  split
  · next found known => exact trusts found known
  · rfl

theorem Run.consult_congr
    (same : Dependencies.ofBlock first block = Dependencies.ofBlock second block) :
    run.consult first (.template block) = run.consult second (.template block) := by
  simp only [consult, BlockMemory.consult, Memo.consult, same]

/-- What does not belong to the block of a template has no influence on a texture: sources that
answer alike for the block find the same files for it and make the texture from the same image, or
fail alike, and the image comes from one of the textures that are found. -/
theorem template_influence (alike : Dependencies.Alike block first second) :
    Dependencies.ofBlock first block = Dependencies.ofBlock second block ∧
    ∀ (compress : List UInt8 → List UInt8) (path : String) (task : TextureTask),
      task.source = .template block →
      ∀ run other : Run Memo, run.Trusts first block → other.Trusts second block →
        run.image compress first path task = other.image compress second path task ∧
        Origin.Templates compress first (Dependencies.ofBlock first block) path task
          (run.image compress first path task) ∧
        ∀ settings, Renderer.texture ⟨first, settings, compress⟩ path task run =
          Renderer.texture ⟨second, settings, compress⟩ path task run := by
  have same := Dependencies.ofBlock_congr alike
  refine ⟨same, fun compress path task isTemplate run other trusts otherTrusts => ?_⟩
  have found : (run.consult first task.source).1 = Dependencies.ofBlock first block := by
    rw [isTemplate, trusts.consult_eq]
  have otherFound : (other.consult second task.source).1 = Dependencies.ofBlock first block := by
    rw [isTemplate, otherTrusts.consult_eq, same]
  have sameImage : Origin.image compress first (Dependencies.ofBlock first block) path task =
      Origin.image compress second (Dependencies.ofBlock first block) path task :=
    Origin.image_congr isTemplate alike.textures
  refine ⟨?_, ?_, fun settings => ?_⟩
  · rw [Run.image, Run.image, found, otherFound, sameImage]
  · rw [Run.image, found]
    exact Origin.templates_image isTemplate
  · have consulted : run.consult first task.source = run.consult second task.source := by
      rw [isTemplate, Run.consult_congr same]
    rw [Renderer.texture, Renderer.texture]
    dsimp only
    rw [← consulted, found, sameImage]
    rfl

/-- A source with other bytes at one path. -/
def AssetSource.replace (source : AssetSource) (path : String) (bytes : ByteArray) :
    AssetSource where
  read other := if other = path then .ok (some bytes) else source.read other

theorem AssetSource.read_replace {asset : String} {bytes : ByteArray} (elsewhere : asset ≠ path) :
    (source.replace path bytes).read asset = source.read asset :=
  if_neg elsewhere

/-- The lamp refers to a texture of another name, so that an image of its own name would go
unnoticed, even one that cannot be decoded. -/
theorem template_influence_lamp :
    let painted := Dependencies.lamp.replace "assets/minecraft/textures/block/lamp.png" "".toUTF8
    let task : TextureTask := { TextureTask.blank with source := .template "lamp" }
    Dependencies.Alike "lamp" Dependencies.lamp painted ∧
      Run.Trusts .start Dependencies.lamp "lamp" ∧ Run.Trusts .start painted "lamp" ∧
      Dependencies.ofBlock Dependencies.lamp "lamp" = Dependencies.ofBlock painted "lamp" ∧
      Run.image .start Zlib.encode Dependencies.lamp "lamp.png" task =
        Run.image .start Zlib.encode painted "lamp.png" task := by
  intro painted task
  have alike : Dependencies.Alike "lamp" Dependencies.lamp painted := by
    refine ⟨?_, fun state _ location _ => ?_, fun asset listed => ?_⟩
    · exact (AssetSource.read_replace (by decide +kernel)).symm
    · refine (AssetSource.read_replace ?_).symm
      rw [Location.modelFile, show "assets/minecraft/textures/block/lamp.png" =
        "assets/minecraft/textures/block/lamp" ++ ".png" from rfl]
      exact Path.ne_of_ending.symm
    · rw [Dependencies.ofBlock_lamp.2.2, List.mem_singleton] at listed
      exact (AssetSource.read_replace (by rw [listed]; decide +kernel)).symm
  have trusts : ∀ source, Run.Trusts .start source "lamp" := by
    intro source found known
    cases known
  obtain ⟨sameFiles, sameImages⟩ := template_influence alike
  exact ⟨alike, trusts _, trusts _, sameFiles,
    (sameImages Zlib.encode "lamp.png" task rfl .start .start (trusts _) (trusts _)).1⟩

end Blockwright
