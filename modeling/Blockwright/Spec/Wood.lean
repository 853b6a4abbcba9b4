import Blockwright.Spec.Catalog

/-!
# Wood families

A wood type stands for fifteen blocks and twenty-four recipes. Its blocks are themed after the
matching blocks of one wood of the base game.
-/

namespace Blockwright

/-- Part that a block plays in a wood family. -/
inductive WoodRole where
  | log
  /-- The log with bark on all sides. -/
  | wood
  | strippedLog
  | strippedWood
  | planks
  | stairs
  | slab
  | fence
  | fenceGate
  | door
  | trapdoor
  | pressurePlate
  | button
  | sign
  | hangingSign
deriving DecidableEq, Repr

namespace WoodRole

/-- Every role, in family order. -/
def all : List WoodRole :=
  [.log, .wood, .strippedLog, .strippedWood, .planks, .stairs, .slab, .fence, .fenceGate, .door,
    .trapdoor, .pressurePlate, .button, .sign, .hangingSign]

theorem mem_all (role : WoodRole) : role ∈ all := by
  cases role <;> decide

/-- Last words of the ids of a role. -/
def noun : WoodRole → String
  | .log => "log"
  | .strippedLog => "log"
  | .wood => "wood"
  | .strippedWood => "wood"
  | .planks => "planks"
  | .stairs => "stairs"
  | .slab => "slab"
  | .fence => "fence"
  | .fenceGate => "fence_gate"
  | .door => "door"
  | .trapdoor => "trapdoor"
  | .pressurePlate => "pressure_plate"
  | .button => "button"
  | .sign => "sign"
  | .hangingSign => "hanging_sign"

/-- Whether a role has its bark removed. -/
def isStripped : WoodRole → Bool
  | .strippedLog => true
  | .strippedWood => true
  | _ => false

/-- Id of the block that plays a role for a wood. -/
def blockId (role : WoodRole) (wood : String) : String :=
  (if role.isStripped then "stripped_" else "") ++ wood ++ "_" ++ role.noun

/-- Shape of the block that plays a role. -/
def shape : WoodRole → Shape
  | .log => .column
  | .wood => .column
  | .strippedLog => .column
  | .strippedWood => .column
  | .planks => .cube
  | .stairs => .stairs
  | .slab => .slab
  | .fence => .fence
  | .fenceGate => .fenceGate
  | .door => .door
  | .trapdoor => .trapdoor
  | .pressurePlate => .pressurePlate
  | .button => .button
  | .sign => .sign
  | .hangingSign => .hangingSign

end WoodRole

namespace WoodSpec

/-- Wood of the base game that every family is themed after. -/
def model : String := "oak"

/-- Display name of a wood. -/
def title (wood : WoodSpec) : String := wood.displayName.getD (Slug.titleCase wood.id)

/-- Display name of a member: its title-cased id with the display name of the wood in place of
the wood's own title-cased id. -/
def memberTitle (wood : WoodSpec) (id : String) : String :=
  Text.replace (Slug.titleCase wood.id) wood.title (Slug.titleCase id)

/-- Source of the flat sprite of a member's item. -/
def itemSource (shape : Shape) (template : String) : TextureSource :=
  match shape with
  | .door => .copies ["minecraft:item/" ++ template]
  | .sign => .copies ["minecraft:item/" ++ template]
  | .hangingSign => .copies ["minecraft:item/" ++ template]
  | _ => .procedural

/-- Source of the entity texture of a member. -/
def signSource : Shape → Option TextureSource
  | .sign => some (.copies ["minecraft:entity/signs/" ++ model])
  | .hangingSign => some (.copies ["minecraft:entity/signs/hanging/" ++ model])
  | _ => none

/-- The block that plays a role. -/
def member (wood : WoodSpec) (role : WoodRole) : Block :=
  let id := role.blockId wood.id
  let template := role.blockId model
  let title := wood.memberTitle id
  { entity :=
      { id
        displayName := title
        material := .wood
        profile := Profile.derive title id (some "wood") .wood
        archetype := Archetype.ofEntity id title
        color := none
        source := .template template }
    shape := role.shape
    dropsNothing := false
    itemSource := itemSource role.shape template
    signSource := signSource role.shape
    family := some wood.id }

/-- The blocks of a wood in family order. -/
def members (wood : WoodSpec) : List Block := WoodRole.all.map wood.member

/-- The family of a wood. -/
def family (wood : WoodSpec) : WoodFamily :=
  { id := wood.id, displayName := wood.title, members := wood.members.map Block.id }

/-- Tag of all log-like blocks of a wood. -/
def logsTag (wood : String) : String := wood ++ "_logs"

/-- A recipe for the block that plays a role, laid out on a grid. -/
def craft (wood : String) (role : WoodRole) (category : CraftingCategory)
    (pattern : List String) (key : List (Char × String)) (count : UInt32) : Recipe :=
  .shaped (role.blockId wood) category pattern key (role.blockId wood) count

/-- A recipe that makes something of the base game from planks. -/
def craftOther (wood what : String) (category : CraftingCategory)
    (pattern : List String) (key : List (Char × String)) (count : UInt32) : Recipe :=
  .shaped (what ++ "_from_" ++ WoodRole.planks.blockId wood) category pattern key
    ("minecraft:" ++ what) count

/-- The recipes of a wood. -/
def recipes (wood : String) : List Recipe :=
  let planks := WoodRole.planks.blockId wood
  let log := WoodRole.log.blockId wood
  let strippedLog := WoodRole.strippedLog.blockId wood
  let slab := WoodRole.slab.blockId wood
  let button := WoodRole.button.blockId wood
  let stick := "minecraft:stick"
  [ .shapeless planks .building ["#" ++ logsTag wood] planks 4,
    craft wood .wood .building ["##", "##"] [('#', log)] 3,
    craft wood .strippedWood .building ["##", "##"] [('#', strippedLog)] 3,
    craft wood .stairs .building ["#  ", "## ", "###"] [('#', planks)] 4,
    craft wood .slab .building ["###"] [('#', planks)] 6,
    craft wood .fence .misc ["W#W", "W#W"] [('#', stick), ('W', planks)] 3,
    craft wood .fenceGate .redstone ["#W#", "#W#"] [('#', stick), ('W', planks)] 1,
    craft wood .door .redstone ["##", "##", "##"] [('#', planks)] 3,
    craft wood .trapdoor .redstone ["###", "###"] [('#', planks)] 2,
    craft wood .pressurePlate .redstone ["##"] [('#', planks)] 1,
    .shapeless button .redstone [planks] button 1,
    craft wood .sign .misc ["###", "###", " X "] [('#', planks), ('X', stick)] 3,
    craft wood .hangingSign .misc ["X X", "###", "###"]
      [('#', strippedLog), ('X', "minecraft:chain")] 6,
    craftOther wood "stick" .misc ["#", "#"] [('#', planks)] 4,
    craftOther wood "crafting_table" .misc ["##", "##"] [('#', planks)] 1,
    craftOther wood "chest" .misc ["###", "# #", "###"] [('#', planks)] 1,
    craftOther wood "barrel" .misc ["PSP", "P P", "PSP"] [('P', planks), ('S', slab)] 1,
    craftOther wood "bowl" .misc ["# #", " # "] [('#', planks)] 4,
    craftOther wood "shield" .equipment ["WiW", "WWW", " W "]
      [('W', planks), ('i', "minecraft:iron_ingot")] 1,
    craftOther wood "wooden_pickaxe" .equipment ["###", " X ", " X "]
      [('#', planks), ('X', stick)] 1,
    craftOther wood "wooden_axe" .equipment ["##", "#X", " X"] [('#', planks), ('X', stick)] 1,
    craftOther wood "wooden_shovel" .equipment ["#", "X", "X"] [('#', planks), ('X', stick)] 1,
    craftOther wood "wooden_hoe" .equipment ["##", " X", " X"] [('#', planks), ('X', stick)] 1,
    craftOther wood "wooden_sword" .equipment ["#", "#", "X"] [('#', planks), ('X', stick)] 1 ]

end WoodSpec

end Blockwright
