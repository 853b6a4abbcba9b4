import Blockwright.Json.Record
import Blockwright.Tree.File

/-!
# Reading tasks

Tasks of textures and the keys of assets from their JSON form.
-/

namespace Blockwright

open Json (Document Fault)

/-- Reads a profile. -/
def Profile.read : Document → Except Fault Profile :=
  let fields := ["materialHint", "materialClass", "traits", "surfaceStyles", "motifs"]
  let variants {α : Type} (ofName? : String → Option α) :=
    Document.readList (Document.readVariant .buffered ofName?)
  let read (name : String) (value : Document) (profile : Profile) : Except Fault Profile := do
    match name with
    | "materialHint" => return { profile with hint := ← value.readText }
    | "materialClass" =>
      return { profile with
        material := ← Document.readVariant .buffered Material.ofName? value }
    | "traits" => return { profile with traits := ← variants Trait.ofName? value }
    | "surfaceStyles" => return { profile with styles := ← variants Style.ofName? value }
    | "motifs" => return { profile with motifs := ← variants Motif.ofName? value }
    | _ => return profile
  Document.readRecord .buffered fields fields read
    { hint := "", material := .generic, traits := [], styles := [], motifs := [] }

/-- Reads a key. -/
def AssetKey.read : Document → Except Fault AssetKey :=
  let read (name : String) (value : Document) (key : AssetKey) : Except Fault AssetKey := do
    match name with
    | "kind" => return { key with kind := ← Document.readVariant .buffered AssetKind.ofName? value }
    | "id" => return { key with id := ← value.readText }
    | _ => return key
  Document.readRecord .buffered ["kind", "id"] ["kind", "id"] read { kind := .item, id := "" }

/-- Reads the three channels of a color. -/
def Color.read (value : Document) : Except Fault Color := do
  let channel (value : Document) : Except Fault UInt8 := do
    let channel ← value.readWord
    if channel < 256 then return channel.toUInt8 else throw .kind
  match ← Document.readList channel value with
  | [red, green, blue] => return { red, green, blue }
  | _ => throw .kind

namespace TextureSource

/-- Reads what a kind of texture source names. -/
def readNamed (kind : String) (value : Document) : Except Fault TextureSource :=
  match kind with
  | "procedural" => .ok .procedural
  | "vanilla_template" => value.readText.map .template
  | "copy_from_vanilla" => (Document.readList Document.readText value).map .copies
  | _ => .error .kind

/-- Reads a texture source. -/
def read : Document → Except Fault TextureSource
  | .object members none =>
    match members.lookup (some "kind") with
    | some (.text (some kind)) => readNamed kind ((members.lookup (some "value")).getD .null)
    | _ => .error .kind
  | other => .error other.mismatch

end TextureSource

namespace TextureTask

/-- Fields that must be stated. -/
def required : List String :=
  ["owner", "role", "materialClass", "profile", "archetype", "source", "suffix", "hueKey",
    "location", "width", "height"]

def fields : List String :=
  ["owner", "role", "materialClass", "profile", "archetype", "color", "source", "templateId",
    "suffix", "hueKey", "location", "width", "height"]

def readField (name : String) (value : Document) (task : TextureTask) :
    Except Fault TextureTask := do
  let variant {α : Type} (ofName? : String → Option α) :=
    Document.readVariant .buffered ofName? value
  match name with
  | "owner" => return { task with owner := ← AssetKey.read value }
  | "role" => return { task with role := ← variant TextureRole.ofName? }
  | "materialClass" => return { task with material := ← variant Material.ofName? }
  | "profile" => return { task with profile := ← Profile.read value }
  | "archetype" => return { task with archetype := ← variant Archetype.ofName? }
  | "color" => return { task with color := ← Document.readOptional Color.read value }
  | "source" => return { task with source := ← TextureSource.read value }
  | "templateId" => return { task with template := ← Document.readOptional Document.readText value }
  | "suffix" => return { task with ending := ← value.readText }
  | "hueKey" => return { task with hueKey := ← value.readText }
  | "location" => return { task with location := ← value.readText }
  | "width" => return { task with width := ← value.readWord }
  | "height" => return { task with height := ← value.readWord }
  | _ => return task

/-- A task with nothing stated. -/
def blank : TextureTask :=
  { owner := { kind := .item, id := "" }
    role := .item
    material := .generic
    profile := { hint := "", material := .generic, traits := [], styles := [], motifs := [] }
    archetype := .plain
    color := none
    source := .procedural
    template := none
    ending := ""
    hueKey := ""
    location := ""
    width := 0
    height := 0 }

/-- Reads a task. -/
def read : Document → Except Fault TextureTask :=
  Document.readRecord .buffered fields required readField blank

end TextureTask

end Blockwright
