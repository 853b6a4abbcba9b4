import Blockwright.Png.Validation
import Blockwright.Rendering.Origin
import Blockwright.Theme.Hue

/-!
# Rendering

Every placeholder of a list of files gets the bytes of its texture: found or synthesized, themed,
written as an image and validated. Files are rendered in their order, because a texture must differ
from those before it. The memory that is asked about blocks of the base game may be any.
-/

namespace Blockwright

/-- What textures are rendered with. -/
structure Renderer where
  source : AssetSource
  settings : ThemeSettings
  compress : List UInt8 → List UInt8

namespace Renderer

/-- The bytes of a themed texture, and the number of warnings about it. -/
def finish (renderer : Renderer) (path : String) (image : Image) :
    Except RenderError (ByteArray × Nat) :=
  match Png.encodeImageWith renderer.compress image with
  | .error error => .error (.ofEncoding path error)
  | .ok bytes =>
    match Validation.ofBytes? path bytes with
    | none => .error .halted
    | some validation =>
      if validation.valid then .ok (Bytes.ofList bytes, validation.violations.length)
      else .error (.invalid path (validation.firstError?.getD "invalid texture"))

variable {μ : Type} [BlockMemory μ]

/-- Themes and finishes the image of a texture. -/
def paint (renderer : Renderer) (path : String) (task : TextureTask) (origin : Origin)
    (image : Image) (run : Run μ) : Except RenderError ByteArray × Run μ :=
  let hue := Hue.ofEntity task.color task.hueKey
  match Theme.themed? renderer.settings image hue path run.gallery with
  | none => (.error .halted, run)
  | some (themed, gallery) =>
    let run := { run with gallery }
    match renderer.finish path themed.image with
    | .error error => (.error error, run)
    | .ok (bytes, warnings) =>
      match run.tally.add? origin themed.attempts warnings with
      | none => (.error .halted, run)
      | some tally => (.ok bytes, { run with tally })

/-- The bytes of a texture. -/
def texture (renderer : Renderer) (path : String) (task : TextureTask) (run : Run μ) :
    Except RenderError ByteArray × Run μ :=
  let (found, run) := run.consult renderer.source task.source
  match Origin.image renderer.compress renderer.source found path task with
  | .error error => (.error error, run)
  | .ok (origin, image) => renderer.paint path task origin image run

/-- A file with its placeholder filled. -/
def file (renderer : Renderer) (file : TreeFile) (run : Run μ) :
    Except RenderError TreeFile × Run μ :=
  match file.contents, file.task with
  | .placeholder, none => (.error (.noTask file.path), run)
  | .placeholder, some task =>
    let (bytes, run) := renderer.texture file.path task run
    (bytes.map fun bytes => { file with contents := .binary bytes }, run)
  | _, _ => (.ok file, run)

/-- Files with their placeholders filled, up to the first failure. -/
def files (renderer : Renderer) :
    List TreeFile → Run μ → Except RenderError (List TreeFile) × Run μ
  | [], run => (.ok [], run)
  | next :: rest, run =>
    match renderer.file next run with
    | (.error error, run) => (.error error, run)
    | (.ok done, run) =>
      let (others, run) := files renderer rest run
      (others.map (done :: ·), run)

/-- A batch of files with their placeholders filled. Only success settles the tally. -/
def render (renderer : Renderer) (batch : List TreeFile) (run : Run μ) :
    Except RenderError (List TreeFile) × Run μ :=
  match renderer.files batch run with
  | (.ok done, run) => (.ok done, { run with tally := run.tally.settle run.gallery })
  | failed => failed

end Renderer

end Blockwright
