import Blockwright.Digest.Sha256
import Blockwright.Spec.Json
import Blockwright.Text.Base64
import Blockwright.Tree.File

/-!
# Files as JSON

How the files of a plan are listed: contents with their kind, and for a texture what is known
about its making. A finished file is exported with its bytes as text.
-/

namespace Blockwright

/-- The kind of a key and its id. -/
def AssetKey.toJson (key : AssetKey) : Json :=
  Json.ofMembers [("kind", .text key.kind.name), ("id", .text key.id)]

/-- The members of a task. -/
def TextureTask.toJson (task : TextureTask) : Json := Json.ofMembers [
  ("owner", task.owner.toJson),
  ("role", .text task.role.name),
  ("materialClass", .text task.material.name),
  ("profile", task.profile.toJson),
  ("archetype", .text task.archetype.name),
  ("color", .optional Color.toJson task.color),
  ("source", task.source.toJson),
  ("templateId", .optionalText task.template),
  ("suffix", .text task.ending),
  ("hueKey", .text task.hueKey),
  ("location", .text task.location),
  ("width", .nat task.width.toNat),
  ("height", .nat task.height.toNat)]

/-- The kind of contents and the contents themselves. -/
def Contents.toJson : Contents → Json
  | .text value => Json.ofMembers [("kind", .text "text"), ("data", .text value)]
  | .binary bytes =>
    let data := (Bytes.list bytes).map fun byte => Json.nat byte.toNat
    Json.ofMembers [("kind", .text "binary"), ("data", .array data)]
  | .placeholder => .single "kind" (.text "placeholder")

/-- The members of a file. -/
def TreeFile.toJson (file : TreeFile) : Json := Json.ofMembers (
  [("path", .text file.path), ("contents", file.contents.toJson)]
    ++ (file.task.map fun task => ("metadata", task.toJson)).toList)

/-- The exported form of a file; a placeholder has none. -/
def TreeFile.exported? (file : TreeFile) : Option Json :=
  file.bytes?.map fun bytes => Json.ofMembers [
    ("path", .text file.path),
    ("size", .nat bytes.size),
    ("data_base64", .text (Text.base64 (Bytes.list bytes))),
    ("hash", .text (Sha256.hex bytes))]

end Blockwright
