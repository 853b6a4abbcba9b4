import Blockwright.Text.Words

/-!
# Resource locations

A location names an asset as `namespace:path`; without a namespace it belongs to the base game.
Every kind of asset has its own folder and file ending.
-/

namespace Blockwright

namespace Location

/-- Namespace of the base game. -/
def vanilla : String := "minecraft"

/-- The location with its namespace written out. -/
def canonical (location : String) : String :=
  if location.toList.contains ':' then location else vanilla ++ ":" ++ location

/-- Namespace and path of a location. -/
def split (location : String) : String × String :=
  (Text.cut? ':' location).getD (vanilla, location)

/-- File of a block state of the base game. -/
def blockStateFile (block : String) : String := "assets/minecraft/blockstates/" ++ block ++ ".json"

/-- File of the model at a location. -/
def modelFile (location : String) : String :=
  let (space, path) := split location
  "assets/" ++ space ++ "/models/" ++ path ++ ".json"

/-- File of the texture at a location. -/
def textureFile (location : String) : String :=
  let (space, path) := split location
  "assets/" ++ space ++ "/textures/" ++ path ++ ".png"

/-- File name of a texture without its ending. -/
def textureStem (file : String) : String :=
  let name := Text.afterLast '/' file
  (Text.dropEnd? ".png" name).getD name

end Location

end Blockwright
