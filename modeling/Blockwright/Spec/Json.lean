import Blockwright.Json.Value
import Blockwright.Spec.Catalog

/-!
# Catalogs as JSON

How everything that a mod contains is listed.
-/

namespace Blockwright

/-- The three channels of a color. -/
def Color.toJson (color : Color) : Json :=
  .array [.nat color.red.toNat, .nat color.green.toNat, .nat color.blue.toNat]

/-- The members of a profile. -/
def Profile.toJson (profile : Profile) : Json := Json.ofMembers [
  ("materialHint", .text profile.hint),
  ("materialClass", .text profile.material.name),
  ("traits", .texts (profile.traits.map Trait.name)),
  ("surfaceStyles", .texts (profile.styles.map Style.name)),
  ("motifs", .texts (profile.motifs.map Motif.name))]

/-- The kind of a texture source and what it names. -/
def TextureSource.toJson : TextureSource → Json
  | .procedural => .single "kind" (.text "procedural")
  | .template block =>
    Json.ofMembers [("kind", .text "vanilla_template"), ("value", .text block)]
  | .copies locations =>
    Json.ofMembers [("kind", .text "copy_from_vanilla"), ("value", .texts locations)]

namespace Entity

/-- The members of an entity. -/
def members (entity : Entity) : List (String × Json) := [
  ("id", .text entity.id),
  ("displayName", .text entity.displayName),
  ("materialClass", .text entity.material.name),
  ("profile", entity.profile.toJson),
  ("archetype", .text entity.archetype.name),
  ("color", .optional Color.toJson entity.color),
  ("textureSource", entity.source.toJson)]

/-- An item. -/
def toJson (entity : Entity) : Json := Json.ofMembers entity.members

end Entity

/-- A block: the members of its entity and its own. -/
def Block.toJson (block : Block) : Json := Json.ofMembers (block.entity.members ++ [
  ("shape", .text block.shape.name),
  ("dropsNothing", .bool block.dropsNothing),
  ("itemTextureSource", block.itemSource.toJson),
  ("entityTextureSource", .optional TextureSource.toJson block.signSource),
  ("family", .optionalText block.family)])

/-- A recipe as it is listed, with the name of its type. -/
def Recipe.listed : Recipe → Json
  | .shaped id category pattern key result count => Json.ofMembers [
    ("type", .text "shaped"),
    ("id", .text id),
    ("category", .text category.name),
    ("pattern", .texts pattern),
    ("key", Json.ofMembers (key.map fun entry => (entry.1.toString, .text entry.2))),
    ("result", .text result),
    ("count", .nat count.toNat)]
  | .shapeless id category ingredients result count => Json.ofMembers [
    ("type", .text "shapeless"),
    ("id", .text id),
    ("category", .text category.name),
    ("ingredients", .texts ingredients),
    ("result", .text result),
    ("count", .nat count.toNat)]
  | .cooking id kind category ingredient result experience time => Json.ofMembers [
    ("type", .text "cooking"),
    ("id", .text id),
    ("kind", .text kind.name),
    ("category", .text category.name),
    ("ingredient", .text ingredient),
    ("result", .text result),
    ("experience", .double experience),
    ("cooking_time", .nat time.toNat)]

/-- A wood family. -/
def WoodFamily.toJson (family : WoodFamily) : Json := Json.ofMembers [
  ("id", .text family.id),
  ("displayName", .text family.displayName),
  ("members", .texts family.members)]

/-- Everything that a mod contains. -/
def Catalog.toJson (catalog : Catalog) : Json := Json.ofMembers [
  ("modId", .text catalog.modId),
  ("items", .array (catalog.items.map Entity.toJson)),
  ("blocks", .array (catalog.blocks.map Block.toJson)),
  ("woodFamilies", .array (catalog.families.map WoodFamily.toJson)),
  ("recipes", .array (catalog.recipes.map Recipe.listed))]

end Blockwright
