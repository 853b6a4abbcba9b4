import Blockwright.Json.Value
import Blockwright.Png.Basic
import Blockwright.Shape.Basic
import Blockwright.Version

/-!
# Failures of the gate

The checks that a packed mod has to pass, in their order, and the reasons why it does not.
-/

namespace Blockwright

/-- A check of the gate. -/
inductive GateCheck where
  /-- No recipe is where the game does not look for it. -/
  | recipeFolder
  | recipeForm
  /-- No loot table is where the game does not look for it. -/
  | lootTableFolder
  /-- Loot tables have what every loot table has. -/
  | lootTableForm
  /-- Every block that drops something has a loot table. -/
  | lootTableCoverage
  /-- Both halves of every door have textures that fit. -/
  | doorTextures
  | signAssets
deriving DecidableEq, Repr

namespace GateCheck

/-- Name of a check. -/
def name : GateCheck → String
  | .recipeFolder => "recipe_folder"
  | .recipeForm => "recipe_schema"
  | .lootTableFolder => "loot_table_folder"
  | .lootTableForm => "loot_table_schema"
  | .lootTableCoverage => "loot_table_coverage"
  | .doorTextures => "door_textures"
  | .signAssets => "sign_assets"

/-- Name of a check in running text. -/
def title : GateCheck → String
  | .recipeFolder => "RecipeFolder"
  | .recipeForm => "RecipeSchema"
  | .lootTableFolder => "LootTableFolder"
  | .lootTableForm => "LootTableSchema"
  | .lootTableCoverage => "LootTableCoverage"
  | .doorTextures => "DoorTextures"
  | .signAssets => "SignAssets"

end GateCheck

/-- What a member of a data file must be. -/
inductive MemberForm where
  | any
  | array
deriving DecidableEq, Repr

/-- Whether a member has the form. -/
def MemberForm.holds : MemberForm → Json → Bool
  | .any, _ => true
  | .array, .array _ => true
  | .array, _ => false

/-- Why a check fails. -/
inductive GateReason where
  /-- A file is in a folder that is not loaded, and so are others. -/
  | misplaced (what rejected accepted : String) (version : Version) (others : Nat)
  | malformed
  | badMember (name : String) (form : MemberForm)
  | noLootTable (block : String)
  /-- A half of a door has no texture. -/
  | noDoorTexture
  /-- The texture of a half of a door is no image. -/
  | badDoorTexture (error : Png.Error)
  /-- The texture of a half of a door does not fit. -/
  | doorSize (width height : UInt32)
  /-- The textures of the halves of a door differ in size. -/
  | doorHalves (bottom top : UInt32)
  | incompleteSign (shape : Shape) (block : String)
deriving DecidableEq, Repr

/-- Wording of a reason. -/
def GateReason.message : GateReason → String
  | .misplaced what rejected accepted version others =>
    what ++ " file under `" ++ rejected ++ "/`; Minecraft " ++ version.toText
      ++ " only loads `data/<namespace>/" ++ accepted ++ "/`"
      ++ (if others = 0 then "" else " (" ++ toString others ++ " more file(s) affected)")
  | .malformed => "invalid JSON"
  | .badMember name .any => "missing required field `" ++ name ++ "`"
  | .badMember name .array => "field `" ++ name ++ "` must be an array"
  | .noLootTable block =>
    "block `" ++ block ++ "` has no loot table and is not marked as dropping nothing"
  | .noDoorTexture => "door texture missing"
  | .badDoorTexture error => "not a valid PNG: " ++ error.message
  | .doorSize width height =>
    "door texture is " ++ Png.sides width height ++ "; expected a square multiple of 16"
  | .doorHalves bottom top =>
    "door halves differ in size: bottom " ++ Png.sides bottom bottom ++ ", top "
      ++ Png.sides top top
  | .incompleteSign shape block =>
    Text.replace "_" " " shape.name ++ " `" ++ block ++ "` is missing a required file"

/-- A failed check, the path that it fails at and the reason. -/
structure GateFailure where
  check : GateCheck
  path : String
  reason : GateReason
deriving DecidableEq, Repr

namespace GateFailure

/-- A failure in one line. -/
def message (failure : GateFailure) : String :=
  "[" ++ failure.check.title ++ "] " ++ failure.path ++ ": " ++ failure.reason.message

/-- The members of a failure. -/
def toJson (failure : GateFailure) : Json := Json.ofMembers [
  ("check", .text failure.check.name),
  ("path", .text failure.path),
  ("reason", .text failure.reason.message)]

end GateFailure

end Blockwright
