import Blockwright.Archive
import Blockwright.Gate.Failure
import Blockwright.Gate.Settings
import Blockwright.Json.Document
import Blockwright.Png.Decode
import Blockwright.Shape.Model
import Blockwright.Tree.Location
import Blockwright.Tree.Path

/-!
# The gate

A packed mod is checked as the game will load it. The checks run in a fixed order, and the first
that fails tells one path and one reason.
-/

namespace Blockwright

/-- The kinds of data files that the gate looks at. -/
inductive DataKind where
  | recipe
  | lootTable
deriving DecidableEq, Repr

namespace DataKind

/-- Name in running text. -/
def title : DataKind → String
  | .recipe => "recipe"
  | .lootTable => "loot table"

/-- Folder of the files. -/
def folder (kind : DataKind) (folders : Folders) : String :=
  match kind with
  | .recipe => folders.recipe
  | .lootTable => folders.lootTable

def folderCheck : DataKind → GateCheck
  | .recipe => .recipeFolder
  | .lootTable => .lootTableFolder

def formCheck : DataKind → GateCheck
  | .recipe => .recipeForm
  | .lootTable => .lootTableForm

/-- What every file must have. -/
def members : DataKind → List (String × MemberForm)
  | .recipe => [("type", .any), ("result", .any)]
  | .lootTable => [("type", .any), ("pools", .array)]

end DataKind

namespace Gate

/-- Why a check does not answer. -/
inductive NoVerdict where
  /-- An entry of the archive cannot be read. -/
  | archive (error : ArchiveError)
  /-- A number of bytes of a texture does not fit a word of 64 bits, which stops the program. -/
  | halted
deriving DecidableEq, Repr

/-- What a check answers: the failure that it finds, if any. -/
abbrev Verdict := Except NoVerdict (Option GateFailure)

/-- A failure as a verdict. -/
def fail (check : GateCheck) (path : String) (reason : GateReason) : Verdict :=
  .ok (some { check, path, reason })

/-- The first failure of checks that run in order. -/
def firstOf : List (Unit → Verdict) → Verdict
  | [] => .ok none
  | check :: rest =>
    match check () with
    | .ok none => firstOf rest
    | verdict => verdict

/-- Whether a name is that of a file somewhere below a folder of the data of some namespace. -/
def isInDataFolder (folder name : String) : Bool :=
  match Text.cut? '/' name with
  | some ("data", rest) =>
    match Text.cut? '/' rest with
    | some (_, rest) =>
      match Text.cut? '/' rest with
      | some (found, rest) => found == folder && rest != ""
      | none => false
    | none => false
  | _ => false

/-- Checks that no file of a kind is in the folder that is not loaded. -/
def checkFolder (settings : GateSettings) (kind : DataKind) (archive : Archive) : Verdict :=
  let accepted := kind.folder (.accepted settings.version)
  let rejected := kind.folder (.rejected settings.version)
  match archive.names.filter (isInDataFolder rejected) with
  | [] => .ok none
  | first :: others =>
    fail kind.folderCheck first
      (.misplaced kind.title rejected accepted settings.version others.length)

/-- Why the bytes of a data file are not in order. -/
def formFault? (kind : DataKind) (bytes : ByteArray) : Option GateReason :=
  match Json.parseBytes bytes with
  | .error _ => some .malformed
  | .ok value =>
    (kind.members.find? fun required =>
      !((value.get? required.1).any required.2.holds)).map fun required =>
        .badMember required.1 required.2

/-- Checks the forms of files. -/
def checkFormsOf (kind : DataKind) (archive : Archive) : List String → Verdict
  | [] => .ok none
  | name :: rest => do
    let (_, bytes) ← (archive.entry name).mapError .archive
    match formFault? kind bytes with
    | some reason => fail kind.formCheck name reason
    | none => checkFormsOf kind archive rest

/-- Checks that every data file of a kind has what it must have. -/
def checkForms (settings : GateSettings) (kind : DataKind) (archive : Archive) : Verdict :=
  let folder := kind.folder (.accepted settings.version)
  checkFormsOf kind archive (archive.names.filter fun name =>
    isInDataFolder folder name && ".json".toList.isSuffixOf name.toList)

/-- Checks that every block that drops something has a loot table. -/
def checkLoot (settings : GateSettings) (archive : Archive) : Verdict :=
  let path (id : String) := Path.lootTable (.accepted settings.version) settings.modId id
  let lacking := settings.blockIds.find? fun id =>
    !settings.noDropIds.contains id && !archive.contains (path id)
  match lacking with
  | some id => fail .lootTableCoverage (path id) (.noLootTable id)
  | none => .ok none

/-- Path of the texture of a half of a door. -/
def doorTexture (settings : GateSettings) (id half : String) : String :=
  Path.texture settings.modId .block (id ++ half)

/-- The side of the texture of a half of a door, or why it does not fit. -/
def doorSide (archive : Archive) (path : String) :
    Except NoVerdict (Except GateReason UInt32) := do
  match ← (archive.read path).mapError .archive with
  | none => return .error .noDoorTexture
  | some bytes =>
    match Png.decode (Bytes.list bytes) with
    | .error .overflow => throw .halted
    | .error error => return .error (.badDoorTexture error)
    | .ok png =>
      let (width, height) := (png.header.width, png.header.height)
      if width != height || width % 16 != 0 then return .error (.doorSize width height)
      return .ok width

/-- Checks the textures of a door. -/
def checkDoor (settings : GateSettings) (archive : Archive) (id : String) : Verdict := do
  let bottomPath := doorTexture settings id "_bottom"
  let topPath := doorTexture settings id "_top"
  match ← doorSide archive bottomPath with
  | .error reason => fail .doorTextures bottomPath reason
  | .ok bottom =>
    match ← doorSide archive topPath with
    | .error reason => fail .doorTextures topPath reason
    | .ok top =>
      if bottom != top then fail .doorTextures topPath (.doorHalves bottom top) else return none

/-- Checks the textures of all doors. -/
def checkDoors (settings : GateSettings) (archive : Archive) : Verdict :=
  let doors := settings.blockIds.filter fun id => settings.shape id = .door
  firstOf (doors.map fun id _ => checkDoor settings archive id)

/-- Paths of the files that a sign must have. -/
def signFiles (settings : GateSettings) (id : String) : List String :=
  [ Path.blockState settings.modId id,
    Path.model settings.modId .block id,
    Path.texture settings.modId .block id ]
    ++ (((settings.shape id).entityTexture? settings.modId id).map Location.textureFile).toList

/-- Checks the files of a sign. -/
def checkSign (settings : GateSettings) (archive : Archive) (id : String) : Verdict :=
  match (signFiles settings id).find? fun path => !archive.contains path with
  | some path => fail .signAssets path (.incompleteSign (settings.shape id) id)
  | none => .ok none

/-- Checks the files of all signs. -/
def checkSigns (settings : GateSettings) (archive : Archive) : Verdict :=
  let signs := settings.blockIds.filter fun id => (settings.shape id).isSign
  firstOf (signs.map fun id _ => checkSign settings archive id)

/-- All checks, in order. -/
def checks (settings : GateSettings) (archive : Archive) : List (Unit → Verdict) := [
  fun _ => checkFolder settings .recipe archive,
  fun _ => checkForms settings .recipe archive,
  fun _ => checkFolder settings .lootTable archive,
  fun _ => checkForms settings .lootTable archive,
  fun _ => checkLoot settings archive,
  fun _ => checkDoors settings archive,
  fun _ => checkSigns settings archive]

/-- The first failure of a packed mod, if it has any. -/
def check (settings : GateSettings) (archive : Archive) : Verdict :=
  firstOf (checks settings archive)

end Gate

end Blockwright
