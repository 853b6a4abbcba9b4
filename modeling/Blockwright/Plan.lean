import Blockwright.Assets.Mapping
import Blockwright.Data.Tag
import Blockwright.Settings
import Blockwright.Spec.Expansion

/-!
# Plans

The plan of a mod is its catalog with all files that it will have; textures are still
placeholders. The files are ascending by path, and no two share one.
-/

namespace Blockwright

/-- Why a mod cannot be planned. -/
inductive PlanError where
  | specification (error : SpecError)
  | mapping (error : MapError)
  | data (error : EmitError)
  | pathCollision (path : String)
deriving DecidableEq, Repr

def PlanError.message : PlanError → String
  | .specification error => "Invalid specification: " ++ error.message
  | .mapping error => "Mapping failed: " ++ error.message
  | .data error => "Emitting data files failed: " ++ error.message
  | .pathCollision path => "Two generated files share the path " ++ path

/-- A mod with all its files. -/
structure Plan where
  catalog : Catalog
  files : List TreeFile

namespace Plan

/-- The files of a catalog. -/
def filesOf (catalog : Catalog) (settings : Settings) : Except PlanError (List TreeFile) := do
  let assets ← (catalog.assetFiles settings.sizes catalog.keys).mapError .mapping
  let data ← (catalog.dataFiles settings.folders).mapError .data
  let files := TreeFile.sort (assets ++ data)
  match firstRepeated? [] (files.map TreeFile.path) with
  | some path => throw (.pathCollision path)
  | none => return files

/-- The plan of a specification. -/
def ofSpecification (spec : Specification) (settings : Settings) : Except PlanError Plan := do
  let catalog ← spec.expand.mapError .specification
  let files ← filesOf catalog settings
  return { catalog, files }

end Plan

end Blockwright
