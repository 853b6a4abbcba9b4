import Blockwright.Json.Value
import Blockwright.Shape.Basic

/-!
# Models of shapes

Every shape owns a fixed list of block models, the textures that they show, and the way its item
is drawn. A model or texture is named by an ending behind the block id.
-/

namespace Blockwright

/-- A model that a shape needs. -/
structure ModelTemplate where
  /-- Ending of the model's name behind the block id. -/
  ending : String
  /-- Parent model of the base game; none for a model that only has particles. -/
  parent : Option String
  /-- Texture slots, each with the ending of the texture it shows. -/
  slots : List (String × String)
deriving DecidableEq, Repr

/-- How the item of a block is drawn. -/
inductive ItemForm where
  /-- Like the block model with the given ending. -/
  | placed (ending : String)
  /-- As a flat sprite with a texture of its own. -/
  | flat
deriving DecidableEq, Repr

/-- Name of a form in listings. -/
def ItemForm.name : ItemForm → String
  | .placed ending => "block" ++ ending
  | .flat => "generated"

namespace ModelTemplate

/-- One texture on all sides. -/
def own : List (String × String) := [("all", "")]

/-- Ends with a texture of their own. -/
def endAndSide : List (String × String) := [("end", "_top"), ("side", "")]

/-- One texture in three slots. -/
def bottomTopSide : List (String × String) := [("bottom", ""), ("top", ""), ("side", "")]

/-- One texture in the usual slot. -/
def plain : List (String × String) := [("texture", "")]

/-- A texture for each half. -/
def halves : List (String × String) := [("bottom", "_bottom"), ("top", "_top")]

/-- Particles only. -/
def particle : List (String × String) := [("particle", "")]

/-- Location of a block's model or texture. -/
def location (modId id ending : String) : String := modId ++ ":block/" ++ id ++ ending

/-- The model of a block. -/
def toJson (template : ModelTemplate) (modId id : String) : Json :=
  let textures := Json.ofMembers (template.slots.map fun slot =>
    (slot.1, Json.text (location modId id slot.2)))
  Json.ofMembers (
    (template.parent.map fun parent => ("parent", Json.text parent)).toList
      ++ [("textures", textures)])

end ModelTemplate

namespace Shape

open ModelTemplate

/-- Block models of a shape. -/
def models : Shape → List ModelTemplate
  | .cube =>
    [ ⟨"", some "minecraft:block/cube_all", own⟩ ]
  | .column =>
    [ ⟨"", some "minecraft:block/cube_column", endAndSide⟩,
      ⟨"_horizontal", some "minecraft:block/cube_column_horizontal", endAndSide⟩ ]
  | .stairs =>
    [ ⟨"", some "minecraft:block/stairs", bottomTopSide⟩,
      ⟨"_inner", some "minecraft:block/inner_stairs", bottomTopSide⟩,
      ⟨"_outer", some "minecraft:block/outer_stairs", bottomTopSide⟩ ]
  | .slab =>
    [ ⟨"", some "minecraft:block/slab", bottomTopSide⟩,
      ⟨"_top", some "minecraft:block/slab_top", bottomTopSide⟩,
      ⟨"_double", some "minecraft:block/cube_all", own⟩ ]
  | .fence =>
    [ ⟨"_post", some "minecraft:block/fence_post", plain⟩,
      ⟨"_side", some "minecraft:block/fence_side", plain⟩,
      ⟨"_inventory", some "minecraft:block/fence_inventory", plain⟩ ]
  | .fenceGate =>
    [ ⟨"", some "minecraft:block/template_fence_gate", plain⟩,
      ⟨"_open", some "minecraft:block/template_fence_gate_open", plain⟩,
      ⟨"_wall", some "minecraft:block/template_fence_gate_wall", plain⟩,
      ⟨"_wall_open", some "minecraft:block/template_fence_gate_wall_open", plain⟩ ]
  | .door =>
    [ ⟨"_bottom_left", some "minecraft:block/door_bottom_left", halves⟩,
      ⟨"_bottom_left_open", some "minecraft:block/door_bottom_left_open", halves⟩,
      ⟨"_bottom_right", some "minecraft:block/door_bottom_right", halves⟩,
      ⟨"_bottom_right_open", some "minecraft:block/door_bottom_right_open", halves⟩,
      ⟨"_top_left", some "minecraft:block/door_top_left", halves⟩,
      ⟨"_top_left_open", some "minecraft:block/door_top_left_open", halves⟩,
      ⟨"_top_right", some "minecraft:block/door_top_right", halves⟩,
      ⟨"_top_right_open", some "minecraft:block/door_top_right_open", halves⟩ ]
  | .trapdoor =>
    [ ⟨"_bottom", some "minecraft:block/template_orientable_trapdoor_bottom", plain⟩,
      ⟨"_top", some "minecraft:block/template_orientable_trapdoor_top", plain⟩,
      ⟨"_open", some "minecraft:block/template_orientable_trapdoor_open", plain⟩ ]
  | .button =>
    [ ⟨"", some "minecraft:block/button", plain⟩,
      ⟨"_pressed", some "minecraft:block/button_pressed", plain⟩,
      ⟨"_inventory", some "minecraft:block/button_inventory", plain⟩ ]
  | .pressurePlate =>
    [ ⟨"", some "minecraft:block/pressure_plate_up", plain⟩,
      ⟨"_down", some "minecraft:block/pressure_plate_down", plain⟩ ]
  | .sign => [⟨"", none, particle⟩]
  | .hangingSign => [⟨"", none, particle⟩]

/-- Endings of the block textures that a shape needs. -/
def textures : Shape → List String
  | .cube => [""]
  | .column => ["", "_top"]
  | .stairs => [""]
  | .slab => [""]
  | .fence => [""]
  | .fenceGate => [""]
  | .door => ["_bottom", "_top"]
  | .trapdoor => [""]
  | .button => [""]
  | .pressurePlate => [""]
  | .sign => [""]
  | .hangingSign => [""]

/-- How the item of a shape is drawn. -/
def itemForm : Shape → ItemForm
  | .cube => .placed ""
  | .column => .placed ""
  | .stairs => .placed ""
  | .slab => .placed ""
  | .fence => .placed "_inventory"
  | .fenceGate => .placed ""
  | .door => .flat
  | .trapdoor => .placed "_bottom"
  | .button => .placed "_inventory"
  | .pressurePlate => .placed ""
  | .sign => .flat
  | .hangingSign => .flat

/-- Folder of the entity texture of a shape, for signs. -/
def entityFolder? : Shape → Option String
  | .sign => some "entity/signs"
  | .hangingSign => some "entity/signs/hanging"
  | _ => none

/-- The block models of a block by name. -/
def modelFiles (shape : Shape) (modId id : String) : List (String × Json) :=
  shape.models.map fun template => (id ++ template.ending, template.toJson modId id)

/-- The model of a block's item. -/
def itemModel (shape : Shape) (modId id : String) : Json :=
  match shape.itemForm with
  | .placed ending => .single "parent" (.text (location modId id ending))
  | .flat =>
    Json.ofMembers [
      ("parent", .text "minecraft:item/generated"),
      ("textures", .single "layer0" (.text (modId ++ ":item/" ++ id)))]

/-- What a sign is made of, read off its id. -/
def signMaterial (id : String) : String :=
  ((Text.dropEnd? "_hanging_sign" id).or (Text.dropEnd? "_sign" id)).getD id

/-- Location of the entity texture of a block, for signs. -/
def entityTexture? (shape : Shape) (modId id : String) : Option String :=
  shape.entityFolder?.map fun folder => modId ++ ":" ++ folder ++ "/" ++ signMaterial id

/-- What is listed about a shape. -/
def toJson (shape : Shape) : Json := Json.ofMembers [
  ("shape", .text shape.name),
  ("models", .texts (shape.models.map ModelTemplate.ending)),
  ("textures", .texts shape.textures),
  ("item", .text shape.itemForm.name),
  ("entityTexture", .optionalText shape.entityFolder?)]

end Shape

end Blockwright
