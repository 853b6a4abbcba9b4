import Blockwright.Data.Recipe

/-!
# Loot tables

Every block drops itself unless it is declared to drop nothing. A door drops once for its two
halves, and a double slab drops twice.
-/

namespace Blockwright

namespace Loot

/-- Condition that a property of the broken block has a value. -/
def whenProperty (block property value : String) : Json :=
  Json.ofMembers [
    ("condition", .text "minecraft:block_state_property"),
    ("block", .text block),
    ("properties", .single property (.text value))]

/-- Further members of the entry of a shape. -/
def shapeMembers (block : String) : Shape → List (String × Json)
  | .door => [("conditions", .array [whenProperty block "half" "lower"])]
  | .slab =>
    [("functions", .array [Json.ofMembers [
      ("function", .text "minecraft:set_count"),
      ("add", .bool false),
      ("count", .number (.real 2.0)),
      ("conditions", .array [whenProperty block "type" "double"])]])]
  | _ => []

/-- The loot table of a block. -/
def table (modId id : String) (shape : Shape) : Json :=
  let name := Ingredient.qualifyId modId id
  let entry := Json.ofMembers (
    [("type", .text "minecraft:item"), ("name", .text name)] ++ shapeMembers name shape)
  let pool := Json.ofMembers [
    ("rolls", .number (.real 1.0)),
    ("bonus_rolls", .number (.real 0.0)),
    ("entries", .array [entry]),
    ("conditions", .array [.single "condition" (.text "minecraft:survives_explosion")])]
  Json.ofMembers [("type", .text "minecraft:block"), ("pools", .array [pool])]

end Loot

/-- One loot table per block that drops something, in declaration order. -/
def Catalog.lootFiles (catalog : Catalog) (folders : Folders) : List TreeFile :=
  (catalog.blocks.filter (fun block => !block.dropsNothing)).map fun block =>
    .ofText (Path.lootTable folders catalog.modId block.id)
      (Loot.table catalog.modId block.id block.shape).pretty

end Blockwright
