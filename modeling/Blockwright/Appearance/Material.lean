import Blockwright.Rules

/-!
# Materials and lighting

What an entity is made of and how it treats light, read off its id, its display name and an
explicit hint.
-/

namespace Blockwright

/-- Class of materials that share a look. -/
inductive Material where
  | wood
  | stone
  | metal
  | food
  | crystal
  | generic
deriving DecidableEq, Repr

namespace Material

def all : List Material :=
  [.wood, .stone, .metal, .food, .crystal, .generic]

def name : Material → String
  | .wood => "wood"
  | .stone => "stone"
  | .metal => "metal"
  | .food => "food"
  | .crystal => "crystal"
  | .generic => "generic"

def ofName? (name : String) : Option Material := all.find? (fun value => value.name == name)

/-- Words that tell a material. -/
def rules : RuleTable Material :=
  [ ⟨.word "gem", .crystal⟩,
    ⟨.wordStart "crystal", .crystal⟩,
    ⟨.word "ruby", .crystal⟩,
    ⟨.word "sapphire", .crystal⟩,
    ⟨.word "emerald", .crystal⟩,
    ⟨.word "amethyst", .crystal⟩,
    ⟨.word "diamond", .crystal⟩,
    ⟨.word "topaz", .crystal⟩,
    ⟨.word "jade", .crystal⟩,
    ⟨.word "quartz", .crystal⟩,
    ⟨.word "shard", .crystal⟩,
    ⟨.word "glass", .crystal⟩,
    ⟨.word "wood", .wood⟩,
    ⟨.wordStart "wooden", .wood⟩,
    ⟨.word "log", .wood⟩,
    ⟨.wordStart "plank", .wood⟩,
    ⟨.word "timber", .wood⟩,
    ⟨.word "bark", .wood⟩,
    ⟨.word "stick", .wood⟩,
    ⟨.word "stone", .stone⟩,
    ⟨.word "rock", .stone⟩,
    ⟨.wordStart "brick", .stone⟩,
    ⟨.wordStart "cobble", .stone⟩,
    ⟨.word "granite", .stone⟩,
    ⟨.word "marble", .stone⟩,
    ⟨.word "slate", .stone⟩,
    ⟨.word "basalt", .stone⟩,
    ⟨.word "ore", .stone⟩,
    ⟨.word "metal", .metal⟩,
    ⟨.word "ingot", .metal⟩,
    ⟨.word "nugget", .metal⟩,
    ⟨.word "iron", .metal⟩,
    ⟨.word "steel", .metal⟩,
    ⟨.word "copper", .metal⟩,
    ⟨.word "gold", .metal⟩,
    ⟨.word "silver", .metal⟩,
    ⟨.word "bronze", .metal⟩,
    ⟨.word "tin", .metal⟩,
    ⟨.word "alloy", .metal⟩,
    ⟨.word "food", .food⟩,
    ⟨.wordStart "apple", .food⟩,
    ⟨.wordStart "berr", .food⟩,
    ⟨.word "bread", .food⟩,
    ⟨.word "meat", .food⟩,
    ⟨.word "pie", .food⟩,
    ⟨.word "cake", .food⟩,
    ⟨.word "cheese", .food⟩,
    ⟨.word "stew", .food⟩,
    ⟨.word "soup", .food⟩,
    ⟨.wordStart "cookie", .food⟩,
    ⟨.wordStart "fruit", .food⟩ ]

/-- The material told by the hint, else by the id, else by the display name. -/
def ofEntity (hint : Option String) (id displayName : String) : Material :=
  ((hint.bind rules.classify).or ((rules.classify id).or (rules.classify displayName))).getD
    .generic

end Material

/-- How a surface treats light. It never influences file names. -/
inductive Archetype where
  | emissive
  | glow
  | translucent
  | plain
deriving DecidableEq, Repr

namespace Archetype

def all : List Archetype :=
  [.emissive, .glow, .translucent, .plain]

def name : Archetype → String
  | .emissive => "emissive"
  | .glow => "glow"
  | .translucent => "translucent"
  | .plain => "plain"

def ofName? (name : String) : Option Archetype := all.find? (fun value => value.name == name)

/-- Words that tell an archetype. -/
def rules : RuleTable Archetype :=
  [ ⟨.word "lamp", .emissive⟩,
    ⟨.word "lantern", .emissive⟩,
    ⟨.word "torch", .emissive⟩,
    ⟨.word "lava", .emissive⟩,
    ⟨.word "magma", .emissive⟩,
    ⟨.word "ember", .emissive⟩,
    ⟨.wordStart "glow", .glow⟩,
    ⟨.word "luminous", .glow⟩,
    ⟨.word "radiant", .glow⟩,
    ⟨.word "glass", .translucent⟩,
    ⟨.word "pane", .translucent⟩,
    ⟨.word "ice", .translucent⟩,
    ⟨.word "slime", .translucent⟩,
    ⟨.always, .plain⟩ ]

/-- The archetype told by the id, else by the display name. -/
def ofEntity (id displayName : String) : Archetype :=
  match rules.classify id with
  | some .plain => (rules.classify displayName).getD .plain
  | none => (rules.classify displayName).getD .plain
  | some found => found

end Archetype

/-- Endings of item ids that tell how the item is held. -/
def heldRules : RuleTable String :=
  [ ⟨.endsWith "_sword", "minecraft:item/handheld"⟩,
    ⟨.endsWith "_pickaxe", "minecraft:item/handheld"⟩,
    ⟨.endsWith "_axe", "minecraft:item/handheld"⟩,
    ⟨.endsWith "_shovel", "minecraft:item/handheld"⟩,
    ⟨.endsWith "_hoe", "minecraft:item/handheld"⟩,
    ⟨.exact "stick", "minecraft:item/handheld"⟩,
    ⟨.endsWith "_rod", "minecraft:item/handheld_rod"⟩,
    ⟨.always, "minecraft:item/generated"⟩ ]

/-- Parent model of a flat item sprite: tools are held like tools. -/
def heldParent (id : String) : String :=
  (heldRules.classify id).getD "minecraft:item/generated"

end Blockwright
