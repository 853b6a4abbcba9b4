import Blockwright.Assets.Mapping
import Blockwright.Json.Record
import Blockwright.Single
import Blockwright.Text.Number
import Blockwright.Theme.Gallery
import Blockwright.Tree.Component

/-!
# Settings

What an operator may choose. Every setting has a default, a file of settings states any of them,
and some may be overridden by variables.
-/

namespace Blockwright

/-- What an operator may choose. -/
structure Settings where
  /-- Version of the game that the mod is for. -/
  version : Version := { major := 1, minor := 21, patch := 1 }
  /-- Where the assets of the base game are. -/
  source : Option String := none
  itemSize : UInt32 := 32
  blockSize : UInt32 := 32
  strength : Float32 := 0.55
  /-- Number of retries for textures that look alike. -/
  retryCap : UInt32 := 4
  strengthStep : Float32 := 0.12

/-- Why a setting is refused. -/
inductive SettingFault where
  /-- A size is too small or too large. -/
  | sizeOutside (size : UInt32)
  /-- A size is not a multiple of sixteen. -/
  | sizeOffGrid (size : UInt32)
  | strengthOutside (strength : Float32)
  | version (fault : Version.Fault)
  | number (fault : Text.NumberFault)

def SettingFault.message : SettingFault → String
  | .sizeOutside size => toString size.toNat ++ " is outside 16..=1024"
  | .sizeOffGrid size => toString size.toNat ++ " is not a multiple of 16"
  | .strengthOutside strength => Single.text strength ++ " is outside 0..=1"
  | .version fault => fault.message
  | .number fault => fault.message

/-- Why settings are refused. -/
inductive SettingsError where
  | malformed (fault : Json.Fault)
  /-- A setting has a value that is not allowed. -/
  | invalid (key : String) (fault : SettingFault)

def SettingsError.message : SettingsError → String
  | .malformed _ => "Malformed config"
  | .invalid key fault => "Invalid " ++ key ++ ": " ++ fault.message

/-- Reads a version from its text. -/
def Json.Document.readVersion (value : Json.Document) : Except Json.Fault Version := do
  match Version.parse (← value.readText) with
  | .ok version => return version
  | .error _ => throw .kind

namespace Settings

open Json (Document Fault)

def fields : List String :=
  ["targetVersion", "vanillaSource", "itemTextureSize", "blockTextureSize", "recolorStrength",
    "dedupRetryCap", "dedupStrengthStep"]

def readField (name : String) (value : Document) (settings : Settings) :
    Except Fault Settings := do
  match name with
  | "targetVersion" => return { settings with version := ← value.readVersion }
  | "vanillaSource" =>
    return { settings with source := ← Document.readOptional Document.readText value }
  | "itemTextureSize" => return { settings with itemSize := ← value.readWord }
  | "blockTextureSize" => return { settings with blockSize := ← value.readWord }
  | "recolorStrength" => return { settings with strength := ← value.readSingle }
  | "dedupRetryCap" => return { settings with retryCap := ← value.readWord }
  | "dedupStrengthStep" => return { settings with strengthStep := ← value.readSingle }
  | _ => return settings

/-- Reads settings. -/
def read : Document → Except Fault Settings :=
  Document.readRecord .streamed fields [] readField {}

/-- Accepts sizes from 16 to 1024 that are multiples of sixteen. -/
def checkSize (key : String) (size : UInt32) : Except SettingsError Unit :=
  if size < 16 || 1024 < size then .error (.invalid key (.sizeOutside size))
  else if size % 16 != 0 then .error (.invalid key (.sizeOffGrid size))
  else .ok ()

/-- Accepts settings whose sizes and strength are in order. -/
def check (settings : Settings) : Except SettingsError Settings := do
  checkSize "itemTextureSize" settings.itemSize
  checkSize "blockTextureSize" settings.blockSize
  unless 0 ≤ settings.strength && settings.strength ≤ 1 do
    throw (.invalid "recolorStrength" (.strengthOutside settings.strength))
  return settings

/-- The settings of a whole text. -/
def ofText (source : String) : Except SettingsError Settings :=
  match Document.readWhole read source with
  | .ok settings => settings.check
  | .error fault => .error (.malformed fault)

/-- Variable that overrides the source. -/
def sourceVariable : String := "MODFORGE_VANILLA_SOURCE"

/-- Variable that overrides the version. -/
def versionVariable : String := "MODFORGE_TARGET_VERSION"

/-- Variable that overrides the number of retries. -/
def retryVariable : String := "MODFORGE_DEDUP_RETRY_CAP"

/-- The version that a variable states. -/
def readVersion (text : String) : Except SettingsError Version :=
  match Version.parse (Text.trim text) with
  | .ok version => .ok version
  | .error fault => .error (.invalid versionVariable (.version fault))

/-- The number of retries that a variable states. -/
def readRetryCap (text : String) : Except SettingsError UInt32 :=
  match Text.readWord (Text.trim text) with
  | .ok cap => .ok cap
  | .error fault => .error (.invalid retryVariable (.number fault))

/-- The settings with the values of variables in place of their own. An empty source counts for
nothing. -/
def override (settings : Settings) (stated : String → Option String) :
    Except SettingsError Settings := do
  let source :=
    match stated sourceVariable with
    | some path => if path.isEmpty then settings.source else some path
    | none => settings.source
  let version ←
    match stated versionVariable with
    | some text => readVersion text
    | none => pure settings.version
  let retryCap ←
    match stated retryVariable with
    | some text => readRetryCap text
    | none => pure settings.retryCap
  check { settings with source, version, retryCap }

/-- Folders that the game loads. -/
def folders (settings : Settings) : Folders := .accepted settings.version

/-- Sizes of synthesized textures. -/
def sizes (settings : Settings) : TextureSizes :=
  { item := settings.itemSize, block := settings.blockSize }

/-- How textures are themed. -/
def theme (settings : Settings) : ThemeSettings :=
  { strength := settings.strength
    retryCap := settings.retryCap
    strengthStep := settings.strengthStep }

/-- Whether the source is an archive. -/
def sourceIsArchive (settings : Settings) : Bool := settings.source.any Path.isArchive

end Settings

end Blockwright
