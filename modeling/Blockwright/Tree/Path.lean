import Blockwright.Spec.Catalog
import Blockwright.Version

/-!
# Paths of a mod's files

Assets stand below `assets/` and data below `data/`; the data folders depend on the version of the
game.
-/

namespace Blockwright

namespace Path

/-- Path of a texture of an asset. -/
def texture (modId : String) (kind : AssetKind) (name : String) : String :=
  "assets/" ++ modId ++ "/textures/" ++ kind.name ++ "/" ++ name ++ ".png"

/-- Path of a model of an asset. -/
def model (modId : String) (kind : AssetKind) (name : String) : String :=
  "assets/" ++ modId ++ "/models/" ++ kind.name ++ "/" ++ name ++ ".json"

/-- Path of the block state of a block. -/
def blockState (modId id : String) : String :=
  "assets/" ++ modId ++ "/blockstates/" ++ id ++ ".json"

/-- Path of the display names. -/
def language (modId : String) : String := "assets/" ++ modId ++ "/lang/en_us.json"

/-- Path of a recipe. -/
def recipe (folders : Folders) (modId id : String) : String :=
  "data/" ++ modId ++ "/" ++ folders.recipe ++ "/" ++ id ++ ".json"

/-- Path of the loot table of a block. -/
def lootTable (folders : Folders) (modId block : String) : String :=
  "data/" ++ modId ++ "/" ++ folders.lootTable ++ "/blocks/" ++ block ++ ".json"

/-- Folder of the tags of a kind of assets. -/
def tagFolder (folders : Folders) : AssetKind → String
  | .item => folders.itemTags
  | .block => folders.blockTags

/-- Path of a tag. -/
def tag (folders : Folders) (space : String) (kind : AssetKind) (name : String) : String :=
  "data/" ++ space ++ "/" ++ tagFolder folders kind ++ "/" ++ name ++ ".json"

end Path

end Blockwright
