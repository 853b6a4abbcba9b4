import Blockwright.Json.Printer
import Blockwright.Tree.File
import Blockwright.Tree.Path

/-!
# Recipe files

References without a namespace belong to the mod. A cooking recipe makes an item, and not from
itself.
-/

namespace Blockwright

/-- Something used in a recipe. -/
inductive Ingredient where
  | item (id : String)
  | tag (id : String)
deriving DecidableEq, Repr

namespace Ingredient

/-- An id with its namespace written out. -/
def qualifyId (modId id : String) : String :=
  if id.toList.contains ':' then id else modId ++ ":" ++ id

/-- What a reference of a mod stands for. -/
def qualify (modId reference : String) : Ingredient :=
  match Text.dropStart? "#" reference with
  | some name => .tag (qualifyId modId name)
  | none => .item (qualifyId modId reference)

/-- The ingredient in a recipe file. -/
def toJson : Ingredient → Json
  | .item id => .single "item" (.text id)
  | .tag id => .single "tag" (.text id)

end Ingredient

/-- Why a recipe cannot be written. -/
inductive EmitError where
  /-- A cooking recipe makes what it uses. -/
  | selfLoop (recipe item : String)
  | tagResult (recipe tag : String)
deriving DecidableEq, Repr

def EmitError.message : EmitError → String
  | .selfLoop recipe item => "Cooking recipe '" ++ recipe ++ "' turns " ++ item ++ " into itself"
  | .tagResult recipe tag =>
    "Cooking recipe '" ++ recipe ++ "' needs an item ingredient, got tag " ++ tag

namespace Recipe

def craftingResult (modId result : String) (count : UInt32) : Json :=
  Json.ofMembers [
    ("id", .text (Ingredient.qualifyId modId result)),
    ("count", .nat count.toNat)]

/-- The recipe as a file of a mod. -/
def toJson (modId : String) : Recipe → Except EmitError Json
  | .shaped _ category pattern key result count =>
    .ok (Json.ofMembers [
      ("type", .text "minecraft:crafting_shaped"),
      ("category", .text category.name),
      ("pattern", .texts pattern),
      ("key", Json.ofMembers (key.map fun entry =>
        (entry.1.toString, (Ingredient.qualify modId entry.2).toJson))),
      ("result", craftingResult modId result count)])
  | .shapeless _ category ingredients result count =>
    .ok (Json.ofMembers [
      ("type", .text "minecraft:crafting_shapeless"),
      ("category", .text category.name),
      ("ingredients", .array (ingredients.map fun reference =>
        (Ingredient.qualify modId reference).toJson)),
      ("result", craftingResult modId result count)])
  | .cooking id kind category ingredient result experience time =>
    match Ingredient.qualify modId result with
    | .tag tag => .error (.tagResult id tag)
    | .item item =>
      if Ingredient.qualify modId ingredient = .item item then .error (.selfLoop id item)
      else
        .ok (Json.ofMembers [
          ("type", .text ("minecraft:" ++ kind.name)),
          ("category", .text category.name),
          ("ingredient", (Ingredient.qualify modId ingredient).toJson),
          ("result", .single "id" (.text item)),
          ("experience", .double experience),
          ("cookingtime", .nat time.toNat)])

end Recipe

/-- One file per recipe, in declaration order. -/
def Catalog.recipeFiles (catalog : Catalog) (folders : Folders) :
    Except EmitError (List TreeFile) :=
  catalog.recipes.mapM fun recipe =>
    (recipe.toJson catalog.modId).map fun json =>
      .ofText (Path.recipe folders catalog.modId recipe.id) json.pretty

end Blockwright
