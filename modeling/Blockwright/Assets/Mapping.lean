import Blockwright.Json.Printer
import Blockwright.Shape.BlockState
import Blockwright.Tree.File
import Blockwright.Tree.Location
import Blockwright.Tree.Path

/-!
# Asset files

From a catalog and the keys of assets to their textures, models and block states, and the display
names of the whole mod. Textures stay placeholders with a task. The files are ascending by path,
and no two share one.
-/

namespace Blockwright

/-- Sizes of synthesized textures. -/
structure TextureSizes where
  item : UInt32
  block : UInt32
deriving DecidableEq, Repr

/-- What must be among the files of an asset. -/
inductive AssetPart where
  | texture
  | itemModel
  | blockModel
  | blockState
deriving DecidableEq, Repr

/-- Name of a part in messages. -/
def AssetPart.name : AssetPart → String
  | .texture => "texture"
  | .itemModel => "item model"
  | .blockModel => "block model"
  | .blockState => "blockstate"

/-- Why assets cannot be mapped to files. -/
inductive MapError where
  | unknownKey (key : AssetKey)
  /-- A part of an asset is missing. -/
  | incomplete (key : AssetKey) (missing : AssetPart)
  | pathCollision (path : String)
deriving DecidableEq, Repr

def MapError.message : MapError → String
  | .unknownKey key =>
    "Asset key " ++ key.kind.name ++ ":" ++ key.id ++ " is not declared in the specification"
  | .incomplete key missing =>
    "Asset key " ++ key.kind.name ++ ":" ++ key.id ++ " is incomplete: missing " ++ missing.name
  | .pathCollision path => "Two assets map to the same path: " ++ path

namespace AssetKey

/-- Whether a key comes before another: items before blocks, then by id. -/
def precedes (first second : AssetKey) : Bool :=
  if first.kind ≠ second.kind then first.kind = .item else first.id < second.id

/-- Inserts a key into ascending keys unless it is there. -/
def insert (key : AssetKey) : List AssetKey → List AssetKey
  | [] => [key]
  | other :: rest =>
    if key = other then other :: rest
    else if key.precedes other then key :: other :: rest
    else other :: insert key rest

/-- The different keys of a list, ascending. -/
def ascending (keys : List AssetKey) : List AssetKey := keys.foldr insert []

end AssetKey

/-- Side lengths of the entity texture of a sign. -/
def signTextureSize : UInt32 × UInt32 := (64, 32)

/-- A texture that is still to be made. -/
def TreeFile.ofTask (path : String) (task : TextureTask) : TreeFile :=
  { path, contents := .placeholder, task := some task }

namespace Entity

/-- Source of an item's texture; a template names an item of the base game. -/
def spriteSource : TextureSource → TextureSource
  | .template block => .copies ["minecraft:item/" ++ block]
  | other => other

/-- Task of an item's texture. -/
def spriteTask (item : Entity) (modId : String) (sizes : TextureSizes) : TextureTask :=
  { owner := { kind := .item, id := item.id }
    role := .item
    material := item.material
    profile := item.profile
    archetype := item.archetype
    color := item.color
    source := spriteSource item.source
    template := none
    ending := ""
    hueKey := item.id
    location := modId ++ ":item/" ++ item.id
    width := sizes.item
    height := sizes.item }

/-- Model of an item. -/
def spriteModel (item : Entity) (modId : String) : Json :=
  Json.ofMembers [
    ("parent", .text (heldParent item.id)),
    ("textures", .single "layer0" (.text (modId ++ ":item/" ++ item.id)))]

/-- Files of an item: its texture and its model. -/
def itemFiles (item : Entity) (modId : String) (sizes : TextureSizes) : List TreeFile :=
  [ .ofTask (Path.texture modId .item item.id) (item.spriteTask modId sizes),
    .ofText (Path.model modId .item item.id) (item.spriteModel modId).pretty ]

end Entity

namespace Block

/-- Block of the base game that a texture source names. -/
def templateOf : TextureSource → Option String
  | .template block => some block
  | _ => none

/-- Task of a texture of a block. -/
def task (block : Block) (role : TextureRole) (source : TextureSource)
    (ending location : String) (width height : UInt32) : TextureTask :=
  { owner := { kind := .block, id := block.id }
    role
    material := block.entity.material
    profile := block.entity.profile
    archetype := block.entity.archetype
    color := block.entity.color
    source
    template := templateOf block.entity.source
    ending
    hueKey := block.family.getD block.id
    location
    width
    height }

/-- Textures on the faces of a block. -/
def faceFiles (block : Block) (modId : String) (sizes : TextureSizes) : List TreeFile :=
  block.shape.textures.map fun ending =>
    .ofTask (Path.texture modId .block (block.id ++ ending))
      (block.task .block block.entity.source ending (modId ++ ":block/" ++ (block.id ++ ending))
        sizes.block sizes.block)

/-- Models of a block, its block state and the model of its item. -/
def modelFiles (block : Block) (modId : String) : List TreeFile :=
  (block.shape.modelFiles modId block.id).map
      (fun model => .ofText (Path.model modId .block model.1) model.2.pretty)
    ++ [ .ofText (Path.blockState modId block.id)
          (block.shape.blockState.toJson modId block.id).pretty,
         .ofText (Path.model modId .item block.id) (block.shape.itemModel modId block.id).pretty ]

/-- The sprite of the item of a block that is drawn flat. -/
def spriteFiles (block : Block) (modId : String) (sizes : TextureSizes) : List TreeFile :=
  if block.shape.itemForm = .flat then
    [ .ofTask (Path.texture modId .item block.id)
        (block.task .item block.itemSource "" (modId ++ ":item/" ++ block.id) sizes.item
          sizes.item) ]
  else []

/-- The entity texture of a sign. -/
def signFiles (block : Block) (modId : String) : List TreeFile :=
  (block.shape.entityTexture? modId block.id).toList.map fun location =>
    .ofTask (Location.textureFile location)
      (block.task .entity (block.signSource.getD .procedural) "" location signTextureSize.1
        signTextureSize.2)

/-- Files of a block. -/
def assetFiles (block : Block) (modId : String) (sizes : TextureSizes) : List TreeFile :=
  block.faceFiles modId sizes ++ block.modelFiles modId ++ block.spriteFiles modId sizes
    ++ block.signFiles modId

end Block

namespace Catalog

/-- Members of the file of display names: one for each item and each block. -/
def languageMembers (catalog : Catalog) : List (String × Json) :=
  catalog.items.map (fun item =>
      ("item." ++ catalog.modId ++ "." ++ item.id, Json.text item.displayName))
    ++ catalog.blocks.map (fun block =>
      ("block." ++ catalog.modId ++ "." ++ block.id, Json.text block.entity.displayName))

/-- Display names of all items and blocks. -/
def language (catalog : Catalog) : Json := Json.ofMembers catalog.languageMembers

/-- The file of display names. -/
def languageFile (catalog : Catalog) : TreeFile :=
  .ofText (Path.language catalog.modId) catalog.language.pretty

/-- Files of the asset with the given key. -/
def keyFiles (catalog : Catalog) (sizes : TextureSizes) (key : AssetKey) :
    Except MapError (List TreeFile) :=
  match key.kind with
  | .item =>
    match catalog.item? key.id with
    | some item => .ok (item.itemFiles catalog.modId sizes)
    | none => .error (.unknownKey key)
  | .block =>
    match catalog.block? key.id with
    | some block => .ok (block.assetFiles catalog.modId sizes)
    | none => .error (.unknownKey key)

/-- Parts that an asset of a kind must have. -/
def requiredParts : AssetKind → List AssetPart
  | .item => [.texture, .itemModel]
  | .block => [.texture, .itemModel, .blockModel, .blockState]

/-- Whether a file is a part of an asset. -/
def isPart (file : TreeFile) : AssetPart → Bool
  | .texture => file.isTexture
  | .itemModel => Text.occurs "/models/item/".toList file.path.toList
  | .blockModel => Text.occurs "/models/block/".toList file.path.toList
  | .blockState => Text.occurs "/blockstates/".toList file.path.toList

/-- The first part that is missing among the files of an asset. -/
def missingPart? (kind : AssetKind) (files : List TreeFile) : Option AssetPart :=
  (requiredParts kind).find? fun part => !files.any (fun file => isPart file part)

/-- Adds files one by one to those before unless a path is taken. -/
def addFiles : (done : List TreeFile) → List TreeFile → Except MapError (List TreeFile)
  | done, [] => .ok done
  | done, file :: rest =>
    if done.any (fun other => other.path == file.path) then .error (.pathCollision file.path)
    else addFiles (file :: done) rest

/-- Adds the files of assets to those before. -/
def addKeys (catalog : Catalog) (sizes : TextureSizes) :
    (done : List TreeFile) → List AssetKey → Except MapError (List TreeFile)
  | done, [] => .ok done
  | done, key :: rest => do
    let files ← catalog.keyFiles sizes key
    if let some part := missingPart? key.kind files then throw (.incomplete key part)
    let done ← addFiles done files
    addKeys catalog sizes done rest

/-- The files of the assets with the given keys and of the display names, ascending by path. -/
def assetFiles (catalog : Catalog) (sizes : TextureSizes) (keys : List AssetKey) :
    Except MapError (List TreeFile) := do
  let done ← catalog.addKeys sizes [] (AssetKey.ascending keys)
  let all ← addFiles done [catalog.languageFile]
  return TreeFile.sort all

end Catalog

end Blockwright
