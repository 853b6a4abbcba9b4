import Blockwright.Build
import Blockwright.CommandLine.Invocation
import Blockwright.Flate.Zlib
import Blockwright.Spec.Reading
import Blockwright.Tree.Json
import Blockwright.Tree.Write
import Blockwright.Zip.Encode

/-!
# Carrying out commands

A command reads and writes a disk and answers with one JSON value and a status: zero for success,
two for a mod that is refused, one for any other failure. Textures are compressed and mods are
packed in the simplest way, which stores all bytes as they are. -/

namespace Blockwright

namespace CommandLine

/-- What a command finds around it. -/
structure Host where
  disk : Disk
  home : Place
  stated : String → Option String
  runId : String
  createdAt : String

/-- What a command answers. -/
structure Report where
  status : Nat
  /-- The answer; there is none to a command line that is not carried out, or if the program
  stops. -/
  answer : Option Json

namespace Report

/-- The report of a success. -/
def success (answer : Json) : Report := { status := 0, answer := some answer }

/-- The report of a mod that is refused. -/
def refused (answer : Json) : Report := { status := 2, answer := some answer }

/-- What is answered to a failure. -/
def explain (message : String) : Json :=
  Json.ofMembers [("success", .bool false), ("error", .text message)]

/-- The report of a failure. -/
def failure (message : String) : Report := { status := 1, answer := some (explain message) }

/-- The report of a program that stops. -/
def halted : Report := { status := 101, answer := none }

/-- The report of a command line that is not carried out. -/
def ofRefusal : Refusal → Report
  | .help => { status := 0, answer := none }
  | .wrong => { status := 2, answer := none }

end Report

/-- The text of a file. -/
def readText (host : Host) (path : String) : Except String String :=
  (host.disk.readText host.home path).mapError fun fault =>
    "Failed to read " ++ path ++ ": " ++ fault.message

/-- The settings of an invocation. The source of assets that is stated last counts. -/
def settingsOf (host : Host) (invocation : Invocation) : Except String Settings := do
  let settings ←
    match invocation.settings with
    | some path => (Settings.ofText (← readText host path)).mapError SettingsError.message
    | none => pure {}
  let settings ← (settings.override host.stated).mapError SettingsError.message
  return { settings with source := invocation.source.or settings.source }

/-- The specification in a file. -/
def specificationOf (host : Host) (path : String) : Except String Specification := do
  (Specification.ofText (← readText host path)).mapError fun fault =>
    (SpecError.malformed fault).message

/-- The assets of the base game. -/
def sourceOf (host : Host) (settings : Settings) : Except String AssetSource :=
  match AssetSource.ofPath host.disk host.home settings.source with
  | .ok (_, source) => .ok source
  | .error error => .error error.message

/-- The report of an answer or of the message of a failure. -/
def report : Except String Json → Report
  | .ok answer => .success answer
  | .error message => .failure message

/-- Lists the files of a specification. -/
def map (host : Host) (settings : Settings) (spec : String) : Except String Json := do
  let spec ← specificationOf host spec
  let plan ← (Plan.ofSpecification spec settings).mapError PlanError.message
  return Json.ofMembers [
    ("success", .bool true),
    ("files", .array (plan.files.map TreeFile.toJson))]

/-- Lists the files that a block of the base game is made of. -/
def resolve (host : Host) (settings : Settings) (block : String) : Except String Json := do
  let source ← sourceOf host settings
  return Json.ofMembers [
    ("template", .text block),
    ("dependencies", (Dependencies.ofBlock source block).toJson)]

/-- What is answered to a verdict. -/
def verdict : Option GateFailure → Json
  | none => .single "ok" (.bool true)
  | some failure => Json.ofMembers [("ok", .bool false), ("failure", failure.toJson)]

/-- The verdict of the gate on the archive that a path leads to. -/
def inspect (disk : Disk) (home : Place) (path : String) (settings : GateSettings) :
    Gate.Verdict := do
  let archive ← (Archive.ofDisk disk home path).mapError fun fault => .archive (.file path fault)
  Gate.check settings archive

/-- What the gate is told, from a specification or else as it stands. -/
def gateSettingsOf (host : Host) (settings : Settings) :
    (spec payload : Option String) → Except String GateSettings
  | some path, _ => do
    let spec ← specificationOf host path
    let catalog ← spec.expand.mapError fun error => (PlanError.specification error).message
    return .ofCatalog catalog settings.version
  | none, some payload => (GateSettings.ofText payload).mapError fun _ => "Invalid payload"
  | none, none => throw "gate needs --spec or --payload"

/-- Checks a packed mod. -/
def gate (host : Host) (settings : Settings) (archive : String) (spec payload : Option String) :
    Report :=
  match gateSettingsOf host settings spec payload with
  | .error message => .failure message
  | .ok settings =>
    match inspect host.disk host.home archive settings with
    | .ok none => .success (verdict none)
    | .ok (some failure) => .refused (verdict (some failure))
    | .error (.archive error) => .failure error.message
    | .error .halted => .halted

/-- Builds the mod of a specification. -/
def build (host : Host) (settings : Settings) (spec : String) : Except Report Build := do
  let spec ← (specificationOf host spec).mapError .failure
  let source ← (sourceOf host settings).mapError .failure
  (Build.ofSpecification Zlib.encode spec settings source).mapError fun error =>
    match error with
    | .render .halted => .halted
    | .render _ => .refused (Report.explain error.message)
    | .plan _ => .failure error.message

/-- Writes the files of a build below a folder, if there is one to write to. -/
def writeOut (home : Place) (build : Build) (disk : Disk) : Option String → Option WriteError × Disk
  | none => (none, disk)
  | some folder => TreeFile.writeAll home folder build.files disk

/-- Packs a build. -/
def packOut (home : Place) (build : Build) (disk : Disk) (path : String) :
    Except ArchiveError Disk := do
  let bytes ← Archive.packFiles Zip.encode path build.files
  (disk.write home path bytes).mapError fun fault => .file path (.disk fault)

/-- The members of the answer to a build. -/
def buildMembers (host : Host) (build : Build) (success : Bool) (gate : Json) :
    List (String × Json) := [
  ("success", .bool success),
  ("manifest", build.manifest.toJson host.runId host.createdAt),
  ("gate", gate)]

/-- The report of a build that has passed the gate, or that has not been there. -/
def finish (host : Host) (build : Build) (withFiles : Bool) (gate : Json) : Report :=
  let files := if withFiles then build.files.filterMap TreeFile.exported? else []
  .success (Json.ofMembers (buildMembers host build true gate ++ [("files", .array files)]))

/-- Packs a build and checks it, if it is to be packed. -/
def deliver (host : Host) (build : Build) (withFiles : Bool) (disk : Disk) :
    Option String → Report × Disk
  | none => (finish host build withFiles .null, disk)
  | some path =>
    match packOut host.home build disk path with
    | .error error => (.failure error.message, disk)
    | .ok disk =>
      match inspect disk host.home path build.gateSettings with
      | .ok none => (finish host build withFiles (verdict none), disk)
      | .ok failed =>
        (.refused (Json.ofMembers (buildMembers host build false (verdict failed))), disk)
      | .error (.archive error) => (.failure error.message, disk)
      | .error .halted => (.halted, disk)

/-- Builds the mod of a specification, writes and packs it. -/
def compile (host : Host) (settings : Settings) (spec : String) (out archive : Option String)
    (withFiles : Bool) : Report × Disk :=
  match build host settings spec with
  | .error report => (report, host.disk)
  | .ok build =>
    match writeOut host.home build host.disk out with
    | (some error, disk) => (.failure error.message, disk)
    | (none, disk) => deliver host build withFiles disk archive

/-- Carries out a command. -/
def carryOut (host : Host) (settings : Settings) : Command → Report × Disk
  | .templates => (.success (.array (Shape.all.map Shape.toJson)), host.disk)
  | .map spec => (report (map host settings spec), host.disk)
  | .resolve block => (report (resolve host settings block), host.disk)
  | .compile spec out archive withFiles => compile host settings spec out archive withFiles
  | .gate archive spec payload => (gate host settings archive spec payload, host.disk)

/-- Carries out an invocation. -/
def invoke (host : Host) (invocation : Invocation) : Report × Disk :=
  match settingsOf host invocation with
  | .error message => (.failure ("Invalid configuration: " ++ message), host.disk)
  | .ok settings => carryOut host settings invocation.command

/-- Carries out what a list of arguments states. -/
def run (host : Host) (arguments : List String) : Report × Disk :=
  match parse arguments with
  | .error refusal => (.ofRefusal refusal, host.disk)
  | .ok invocation => invoke host invocation

end CommandLine

end Blockwright
