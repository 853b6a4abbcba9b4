import Blockwright.Appearance.Profile
import Blockwright.Json.Record
import Blockwright.Shape.Basic

/-!
# Specifications

A mod as its author writes it: items, blocks, wood families and recipes with most of their fields
left open. The reader accepts the JSON form and checks nothing beyond it.
-/

namespace Blockwright

/-- Category of a crafting recipe. -/
inductive CraftingCategory where
  | building
  | redstone
  | equipment
  | misc
deriving DecidableEq, Repr

/-- Name of a category in recipes. -/
def CraftingCategory.name : CraftingCategory → String
  | .building => "building"
  | .redstone => "redstone"
  | .equipment => "equipment"
  | .misc => "misc"

/-- The category with the given name. -/
def CraftingCategory.ofName? (name : String) : Option CraftingCategory :=
  [CraftingCategory.building, .redstone, .equipment, .misc].find? (·.name == name)

/-- Category of a cooking recipe. -/
inductive CookingCategory where
  | food
  | blocks
  | misc
deriving DecidableEq, Repr

/-- Name of a category in recipes. -/
def CookingCategory.name : CookingCategory → String
  | .food => "food"
  | .blocks => "blocks"
  | .misc => "misc"

/-- The category with the given name. -/
def CookingCategory.ofName? (name : String) : Option CookingCategory :=
  [CookingCategory.food, .blocks, .misc].find? (·.name == name)

/-- Where a cooking recipe is used. -/
inductive CookingKind where
  | smelting
  /-- A blast furnace. -/
  | blasting
  | smoking
  | campfire
deriving DecidableEq, Repr

/-- Name of a kind of cooking in recipes. -/
def CookingKind.name : CookingKind → String
  | .smelting => "smelting"
  | .blasting => "blasting"
  | .smoking => "smoking"
  | .campfire => "campfire_cooking"

/-- Ticks that a kind of cooking takes unless a recipe says otherwise. -/
def CookingKind.time : CookingKind → UInt32
  | .smelting => 200
  | .blasting => 100
  | .smoking => 100
  | .campfire => 600

/-- An item, or the part of a block that it shares with items. -/
structure EntitySpec where
  id : String
  displayName : Option String := none
  material : Option String := none
  color : Option String := none
  profile : Option ProfileOverride := none
  template : Option String := none
  /-- Textures to copy, first readable first. -/
  copies : List String := []

/-- A block. -/
structure BlockSpec where
  entity : EntitySpec
  dropsNothing : Bool := false
  shape : Option Shape := none

/-- A wood family. -/
structure WoodSpec where
  id : String
  displayName : Option String := none

/-- A recipe laid out on a grid. -/
structure ShapedSpec where
  id : Option String := none
  pattern : List String := []
  /-- Ingredient of each symbol, symbols ascending. -/
  key : List (Char × String) := []
  result : String := ""
  count : UInt32 := 1
  category : Option CraftingCategory := none

/-- A recipe without a layout. -/
structure ShapelessSpec where
  id : Option String := none
  ingredients : List String := []
  result : String := ""
  count : UInt32 := 1
  category : Option CraftingCategory := none

/-- A recipe of one ingredient and heat. -/
structure CookingSpec where
  id : Option String := none
  ingredient : String := ""
  result : String := ""
  experience : Float := 0.1
  time : Option UInt32 := none
  category : Option CookingCategory := none

/-- A recipe. -/
inductive RecipeSpec where
  | shaped (recipe : ShapedSpec)
  | shapeless (recipe : ShapelessSpec)
  | cooking (kind : CookingKind) (recipe : CookingSpec)

/-- A mod as its author writes it. -/
structure Specification where
  modId : String
  items : List EntitySpec := []
  blocks : List BlockSpec := []
  woods : List WoodSpec := []
  recipes : List RecipeSpec := []

end Blockwright
