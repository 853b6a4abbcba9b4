import Blockwright.Image.Strict
import Blockwright.Png.Encode
import Blockwright.Rendering.Run

/-!
# Origins of textures

The image that a texture is made from: a copied asset, the texture of a template, or a synthesized
one where these yield nothing.
-/

namespace Blockwright

namespace Image

/-- The first frame of an image whose frames are squares, one below the other, unless the number of
bytes of the frame does not fit a word of 32 bits. -/
def firstFrame? (image : Image) : Option Image :=
  if image.width = 0 || image.height ≤ image.width || image.height % image.width != 0 then
    some image
  else
    let count := area image.width image.width
    if 4 * count < UInt32.size then
      some { width := image.width, height := image.width, pixels := image.pixels.take count }
    else none

end Image

/-- The part of an asset that a texture uses, unless it cannot be cut out. -/
def TextureRole.crop? : TextureRole → Image → Option Image
  | .item => Image.firstFrame?
  | .block => Image.firstFrame?
  | .entity => some

namespace Origin

section Assets

variable (compress : List UInt8 → List UInt8) (source : AssetSource)

/-- The image in the bytes of an asset, which are normalized first. -/
def decode (path asset : String) (role : TextureRole) (bytes : ByteArray) :
    Except RenderError Image :=
  match Png.normalizeWith compress (Bytes.list bytes) with
  | .error error => .error (.ofDecoding path asset error)
  | .ok bytes =>
    match Png.decodeImage bytes with
    | .error error => .error (.ofDecoding path asset error)
    | .ok image =>
      match role.crop? image with
      | some image => .ok image
      | none => .error .halted

/-- The image at the path of an asset, if there is one. -/
def image? (path : String) (role : TextureRole) (asset : String) :
    Except RenderError (Option Image) :=
  match source.read asset with
  | .error error => .error (.source error)
  | .ok none => .ok none
  | .ok (some bytes) => (decode compress path asset role bytes).map some

/-- The image of the first location that has one. -/
def copied? (path : String) (role : TextureRole) :
    List String → Except RenderError (Option Image)
  | [] => .ok none
  | location :: rest => do
    let asset := Location.textureFile (Location.canonical location)
    match ← image? compress source path role asset with
    | some image => return some image
    | none => copied? path role rest

/-- The texture of a template whose name has the same ending as that to be made, or else the
first. -/
def texture? (found : Dependencies) (block ending : String) : Option String :=
  (found.textures.find? fun path => Location.textureStem path == block ++ ending).or
    found.textures.head?

/-- The image of a template's texture, if there is one. -/
def templated? (found : Dependencies) (path : String) (task : TextureTask) (block : String) :
    Except RenderError (Option Image) :=
  match texture? found block task.ending with
  | some asset => image? compress source path task.role asset
  | none => .ok none

/-- The image of an asset, if the task names one that is there. -/
def asset? (found : Dependencies) (path : String) (task : TextureTask) :
    Except RenderError (Option (Origin × Image)) :=
  match task.source with
  | .copies locations =>
    (copied? compress source path task.role locations).map (Option.map (copied, ·))
  | .template block =>
    (templated? compress source found path task block).map (Option.map (templated, ·))
  | .procedural => .ok none

/-- The synthesized image of a task. -/
def synthesize (task : TextureTask) : Except RenderError Image :=
  match Image.synthesize? task.location task.profile task.color task.width task.height with
  | some image => .ok image
  | none => .error .halted

/-- The image that a texture is made from. -/
def image (found : Dependencies) (path : String) (task : TextureTask) :
    Except RenderError (Origin × Image) := do
  match ← asset? compress source found path task with
  | some made => return made
  | none => return (synthesized, ← synthesize task)

end Assets

end Origin

end Blockwright
