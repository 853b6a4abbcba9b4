import Blockwright.Settings
import Blockwright.Spec.Catalog

/-!
# Settings of the gate

What the gate knows about a mod besides its archive: its id, its blocks with the shapes that were
stated for them, and the version of the game.
-/

namespace Blockwright

/-- What the gate knows about a mod. -/
structure GateSettings where
  modId : String
  blockIds : List String
  /-- Ids of blocks that have no loot table. -/
  noDropIds : List String := []
  /-- Stated shapes, one for an id. Any other block has the shape that its id tells. -/
  shapes : List (String × Shape) := []
  version : Version := ({} : Settings).version

namespace GateSettings

/-- The shape of a block. -/
def shape (settings : GateSettings) (id : String) : Shape :=
  (settings.shapes.lookup id).getD (Shape.ofId id)

/-- What is known about a mod with a catalog. -/
def ofCatalog (catalog : Catalog) (version : Version) : GateSettings :=
  { modId := catalog.modId
    blockIds := catalog.blockIds
    noDropIds := catalog.noDropIds
    shapes := catalog.blocks.map fun block => (block.id, block.shape)
    version }

open Json (Document Fault)

def fields : List String := ["modId", "blockIds", "noDropIds", "shapes", "targetVersion"]

/-- Reads stated shapes, latest first; the last of several for one id counts. -/
def readShapes (done : List (String × Shape)) :
    List (Option String × Document) → Except Fault (List (String × Shape))
  | [] => .ok done
  | (none, _) :: _ => .error .form
  | (some id, value) :: rest => do
    let shape ← Document.readVariant .streamed Shape.ofName? value
    readShapes ((id, shape) :: done.filter (fun other => other.1 != id)) rest

/-- Reads the shapes of blocks. -/
def readShapeMap : Document → Except Fault (List (String × Shape))
  | .object members fault => do
    let shapes ← readShapes [] members
    Document.finished fault
    return shapes
  | other => .error other.mismatch

def readField (name : String) (value : Document) (settings : GateSettings) :
    Except Fault GateSettings := do
  match name with
  | "modId" => return { settings with modId := ← value.readText }
  | "blockIds" => return { settings with blockIds := ← Document.readList Document.readText value }
  | "noDropIds" => return { settings with noDropIds := ← Document.readList Document.readText value }
  | "shapes" => return { settings with shapes := ← readShapeMap value }
  | "targetVersion" => return { settings with version := ← value.readVersion }
  | _ => return settings

/-- Reads settings. -/
def read : Document → Except Fault GateSettings :=
  Document.readRecord .streamed fields ["modId", "blockIds"] readField
    { modId := "", blockIds := [] }

/-- The settings of a whole text. -/
def ofText (source : String) : Except Fault GateSettings := Document.readWhole read source

/-- The members of settings. -/
def toJson (settings : GateSettings) : Json := Json.ofMembers [
  ("modId", .text settings.modId),
  ("blockIds", .texts settings.blockIds),
  ("noDropIds", .texts settings.noDropIds),
  ("shapes", Json.ofMembers (settings.shapes.map fun stated => (stated.1, .text stated.2.name))),
  ("targetVersion", .text settings.version.toText)]

end GateSettings

end Blockwright
