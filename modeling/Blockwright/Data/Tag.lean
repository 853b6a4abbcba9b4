import Blockwright.Data.Loot
import Blockwright.Spec.Wood
import Blockwright.Text.Ascending

/-!
# Tag files

Tags add members to those of the game and never replace them. The blocks of a wood family join the
tags of wooden blocks, and every block joins the tag of the tool that mines it.
-/

namespace Blockwright

/-- Name of a tag together with the kind of its members. -/
structure Tag where
  space : String
  kind : AssetKind
  name : String
deriving DecidableEq, Repr

namespace Tag

/-- Whether a tag comes before another: by namespace, then items before blocks, then by name. -/
def precedes (first second : Tag) : Bool :=
  if first.space ≠ second.space then first.space < second.space
  else if first.kind ≠ second.kind then first.kind = .item
  else first.name < second.name

/-- A tag together with a member of it. -/
abbrev Entry := Tag × String

/-- Inserts a tag into ascending tags unless it is there. -/
def insertTag (tag : Tag) : List Tag → List Tag
  | [] => [tag]
  | other :: rest =>
    if tag = other then other :: rest
    else if tag.precedes other then tag :: other :: rest
    else other :: insertTag tag rest

/-- The tags of entries, ascending. -/
def tags (entries : List Entry) : List Tag :=
  entries.foldr (fun entry found => insertTag entry.1 found) []

/-- The members of a tag among entries, ascending. -/
def values (entries : List Entry) (tag : Tag) : List String :=
  Text.ascending ((entries.filter (fun entry => entry.1 = tag)).map Prod.snd)

/-- Tags of wooden blocks and the roles whose blocks join them. -/
def woodenRoles : List (String × WoodRole) :=
  [ ("planks", .planks), ("wooden_stairs", .stairs), ("wooden_slabs", .slab),
    ("wooden_fences", .fence), ("fence_gates", .fenceGate), ("wooden_doors", .door),
    ("wooden_trapdoors", .trapdoor), ("wooden_buttons", .button),
    ("wooden_pressure_plates", .pressurePlate) ]

/-- Roles that join the family's own tag of logs. -/
def logRoles : List WoodRole := [.log, .wood, .strippedLog, .strippedWood]

/-- Entries of a wood family for one kind of members. -/
def familyEntriesOf (modId : String) (family : WoodFamily) (kind : AssetKind) : List Entry :=
  let member (role : WoodRole) := Ingredient.qualifyId modId (role.blockId family.id)
  let logs := WoodSpec.logsTag family.id
  logRoles.map (fun role => (⟨modId, kind, logs⟩, member role))
    ++ [(⟨"minecraft", kind, "logs_that_burn"⟩, "#" ++ modId ++ ":" ++ logs)]
    ++ woodenRoles.map (fun entry => (⟨"minecraft", kind, entry.1⟩, member entry.2))

/-- Entries of a wood family. -/
def familyEntries (modId : String) (family : WoodFamily) : List Entry :=
  let member (role : WoodRole) := Ingredient.qualifyId modId (role.blockId family.id)
  familyEntriesOf modId family .block ++ familyEntriesOf modId family .item
    ++ [ (⟨"minecraft", .block, "standing_signs"⟩, member .sign),
         (⟨"minecraft", .block, "ceiling_hanging_signs"⟩, member .hangingSign),
         (⟨"minecraft", .item, "signs"⟩, member .sign),
         (⟨"minecraft", .item, "hanging_signs"⟩, member .hangingSign) ]

/-- Tag of the tool that mines a material. -/
def tool? : Material → Option String
  | .wood => some "mineable/axe"
  | .stone => some "mineable/pickaxe"
  | .metal => some "mineable/pickaxe"
  | .crystal => some "mineable/pickaxe"
  | .food => none
  | .generic => none

/-- Entries of a block in the tag of its tool. -/
def toolEntries (modId : String) (block : Block) : List Entry :=
  (tool? block.entity.material).toList.map fun name =>
    (⟨"minecraft", .block, name⟩, Ingredient.qualifyId modId block.id)

/-- All entries of a mod. -/
def entries (catalog : Catalog) : List Entry :=
  catalog.families.flatMap (familyEntries catalog.modId)
    ++ catalog.blocks.flatMap (toolEntries catalog.modId)

/-- The file of a tag with the given members. -/
def toJson (values : List String) : Json :=
  Json.ofMembers [("replace", .bool false), ("values", .texts values)]

end Tag

/-- One file per tag, tags ascending. -/
def Catalog.tagFiles (catalog : Catalog) (folders : Folders) : List TreeFile :=
  let entries := Tag.entries catalog
  (Tag.tags entries).map fun tag =>
    .ofText (Path.tag folders tag.space tag.kind tag.name)
      (Tag.toJson (Tag.values entries tag)).pretty

/-- Recipes, loot tables and tags, ascending by path. -/
def Catalog.dataFiles (catalog : Catalog) (folders : Folders) :
    Except EmitError (List TreeFile) :=
  (catalog.recipeFiles folders).map fun recipes =>
    TreeFile.sort (recipes ++ catalog.lootFiles folders ++ catalog.tagFiles folders)

end Blockwright
