import Blockwright.Image.Color
import Blockwright.Spec.Slug
import Blockwright.Spec.Specification

/-!
# Catalogs

A mod with every default filled in: items, blocks, wood families and recipes, each with an id.
Nothing downstream asks whether a field is there.
-/

namespace Blockwright

/-- The two kinds of assets. -/
inductive AssetKind where
  | item
  | block
deriving DecidableEq, Repr

/-- Name of a kind in paths. -/
def AssetKind.name : AssetKind → String
  | .item => "item"
  | .block => "block"

/-- The kind with the given name. -/
def AssetKind.ofName? (name : String) : Option AssetKind :=
  [AssetKind.item, .block].find? (·.name == name)

/-- What the files of a mod are made for. -/
structure AssetKey where
  kind : AssetKind
  id : String
deriving DecidableEq, Repr

/-- Where the pixels of a texture come from. -/
inductive TextureSource where
  | procedural
  /-- They come from the textures that a block of the base game refers to. -/
  | template (block : String)
  /-- They come from the first readable of the given textures. -/
  | copies (locations : List String)
deriving DecidableEq, Repr

/-- An item, or the part of a block that it shares with items. -/
structure Entity where
  id : String
  displayName : String
  material : Material
  profile : Profile
  archetype : Archetype
  color : Option Color
  source : TextureSource
deriving DecidableEq, Repr

/-- A block. -/
structure Block where
  entity : Entity
  shape : Shape
  dropsNothing : Bool
  /-- Where the flat sprite of its item comes from. -/
  itemSource : TextureSource
  /-- Where the entity texture of a sign comes from; none for other shapes. -/
  signSource : Option TextureSource
  family : Option String
deriving DecidableEq, Repr

/-- Id of a block. -/
def Block.id (block : Block) : String := block.entity.id

/-- A recipe. Its references are as written, local or with a namespace. -/
inductive Recipe where
  | shaped (id : String) (category : CraftingCategory) (pattern : List String)
      (key : List (Char × String)) (result : String) (count : UInt32)
  | shapeless (id : String) (category : CraftingCategory) (ingredients : List String)
      (result : String) (count : UInt32)
  | cooking (id : String) (kind : CookingKind) (category : CookingCategory)
      (ingredient result : String) (experience : Float) (time : UInt32)

namespace Recipe

/-- Id of a recipe. -/
def id : Recipe → String
  | shaped id .. => id
  | shapeless id .. => id
  | cooking id .. => id

/-- Everything a recipe refers to, its result last. -/
def references : Recipe → List String
  | shaped _ _ _ key result _ => key.map Prod.snd ++ [result]
  | shapeless _ _ ingredients result _ => ingredients ++ [result]
  | cooking _ _ _ ingredient result _ _ => [ingredient, result]

end Recipe

/-- A wood family. -/
structure WoodFamily where
  id : String
  displayName : String
  /-- Ids of its blocks in family order. -/
  members : List String
deriving DecidableEq, Repr

/-- A mod with every default filled in. -/
structure Catalog where
  modId : String
  items : List Entity
  /-- Blocks in declaration order, those of wood families last. -/
  blocks : List Block
  families : List WoodFamily
  /-- Recipes, those of wood families first. -/
  recipes : List Recipe

namespace Catalog

/-- Keys of all items, then of all blocks. -/
def keys (catalog : Catalog) : List AssetKey :=
  catalog.items.map (fun item => { kind := .item, id := item.id })
    ++ catalog.blocks.map (fun block => { kind := .block, id := block.id })

/-- The item with the given id. -/
def item? (catalog : Catalog) (id : String) : Option Entity :=
  catalog.items.find? (fun item => item.id == id)

/-- The block with the given id. -/
def block? (catalog : Catalog) (id : String) : Option Block :=
  catalog.blocks.find? (fun block => block.id == id)

/-- Ids of all blocks. -/
def blockIds (catalog : Catalog) : List String := catalog.blocks.map Block.id

/-- Ids of the blocks without a loot table. -/
def noDropIds (catalog : Catalog) : List String :=
  (catalog.blocks.filter Block.dropsNothing).map Block.id

end Catalog

end Blockwright
