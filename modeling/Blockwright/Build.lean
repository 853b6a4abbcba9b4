import Blockwright.Gate.Check
import Blockwright.Plan
import Blockwright.Rendering.Texture
import Blockwright.Tree.File

/-!
# Builds

A build of a mod is its plan with all textures rendered, and a manifest that lists the files and
identifies the whole. Equal builds have equal hashes.
-/

namespace Blockwright

/-- Version of the rules that mods are built by. -/
def engineVersion : String := "1.0.0"

/-- Why a mod cannot be built. -/
inductive BuildError where
  | plan (error : PlanError)
  | render (error : RenderError)
deriving DecidableEq, Repr

def BuildError.message : BuildError → String
  | .plan error => error.message
  | .render error => "Materialization failed: " ++ error.message

/-- What a manifest says about a file. -/
structure FileRecord where
  path : String
  size : Nat
  digest : String
deriving DecidableEq, Repr

namespace FileRecord

/-- The record of an entry. -/
def ofEntry (entry : Tree.Entry) : FileRecord :=
  { path := entry.1, size := entry.2.size, digest := Sha256.hex entry.2 }

/-- The members of a record. -/
def toJson (record : FileRecord) : Json := Json.ofMembers [
  ("path", .text record.path), ("size", .nat record.size), ("sha256", .text record.digest)]

end FileRecord

/-- What is said about a whole build. -/
structure Manifest where
  modId : String
  version : Version
  treeHash : String
  /-- The files, in their order. -/
  files : List FileRecord
  tally : Tally

namespace Manifest

/-- The manifest of the entries of a build. -/
def ofEntries (modId : String) (version : Version) (entries : List Tree.Entry) (tally : Tally) :
    Manifest :=
  { modId
    version
    treeHash := Tree.hash entries
    files := entries.map FileRecord.ofEntry
    tally }

/-- The members that equal builds share. -/
def members (manifest : Manifest) : List (String × Json) := [
  ("engineVersion", .text engineVersion),
  ("modId", .text manifest.modId),
  ("targetVersion", .text manifest.version.toText),
  ("treeHash", .text manifest.treeHash),
  ("files", .array (manifest.files.map FileRecord.toJson))]

/-- Hash of what equal builds share. -/
def hash (manifest : Manifest) : String :=
  Sha256.hex (Json.ofMembers manifest.members).canonical.toUTF8

/-- The members of a manifest, with the id and the time of the run. -/
def toJson (manifest : Manifest) (runId createdAt : String) : Json := Json.ofMembers (
  manifest.members ++ [
    ("runId", .text runId),
    ("createdAt", .text createdAt),
    ("manifestHash", .text manifest.hash),
    ("stats", manifest.tally.toJson)])

end Manifest

/-- A built mod. -/
structure Build where
  catalog : Catalog
  /-- Its files, finished and ascending by path. -/
  files : List TreeFile
  manifest : Manifest

namespace Build

/-- The entries of finished files. -/
def entriesOf (files : List TreeFile) : List Tree.Entry :=
  files.filterMap fun file => file.bytes?.map fun bytes => (file.path, bytes)

/-- The build of a plan, whose textures are compressed in a given way. -/
def ofPlan (compress : List UInt8 → List UInt8) (plan : Plan) (settings : Settings)
    (source : AssetSource) : Except BuildError Build := do
  let renderer : Renderer := { source, settings := settings.theme, compress }
  match renderer.render plan.files (.start : Run Memo) with
  | (.error error, _) => throw (.render error)
  | (.ok files, run) =>
    let manifest :=
      .ofEntries plan.catalog.modId settings.version (entriesOf files) run.tally
    return { catalog := plan.catalog, files, manifest }

/-- The build of a specification, whose textures are compressed in a given way. -/
def ofSpecification (compress : List UInt8 → List UInt8) (spec : Specification)
    (settings : Settings) (source : AssetSource) : Except BuildError Build := do
  let plan ← (Plan.ofSpecification spec settings).mapError .plan
  ofPlan compress plan settings source

/-- The file at a path, if there is one. -/
def file? (build : Build) (path : String) : Option TreeFile :=
  Bisection.find? TreeFile.path build.files path

/-- What the gate knows about a build. -/
def gateSettings (build : Build) : GateSettings :=
  .ofCatalog build.catalog build.manifest.version

/-- The verdict of the gate on a build that is packed in a given way and opened again. -/
def inspect (write : List Tree.Entry → List UInt8) (build : Build) (path : String) :
    Gate.Verdict := do
  let bytes ← (Archive.packFiles write path build.files).mapError .archive
  let archive ← (Archive.ofBytes path bytes).mapError fun fault => .archive (.file path fault)
  Gate.check build.gateSettings archive

end Build

end Blockwright
