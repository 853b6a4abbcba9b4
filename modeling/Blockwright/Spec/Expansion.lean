import Blockwright.Spec.Wood

/-!
# Expansion

Checks a specification and fills in every default. Entities are checked in declaration order, then
ids are compared, then each recipe is checked; the first fault is reported.
-/

namespace Blockwright

/-- Why the grid or the id of a recipe is refused. -/
inductive RecipeFault where
  | badId
  | badPattern
  /-- A symbol of its grid has no ingredient. -/
  | unknownSymbol (symbol : Char)
deriving DecidableEq, Repr

def RecipeFault.message : RecipeFault → String
  | .badId => "recipe id is not a valid slug"
  | .badPattern => "pattern must be 1-3 rows of 1-3 characters"
  | .unknownSymbol symbol => "pattern symbol '" ++ symbol.toString ++ "' has no key entry"

/-- Why a specification is refused. -/
inductive SpecError where
  | malformed (fault : Json.Fault)
  | invalidModId (id : String)
  | invalidId (id : String) (fault : Slug.Fault)
  /-- Two items or blocks have one id. -/
  | duplicateId (id : String)
  | duplicateRecipe (id : String)
  /-- A color hint is not a color. -/
  | invalidColor (id value : String)
  /-- A recipe refers to something of the mod that is not declared. -/
  | unknownReference (recipe reference : String)
  | invalidRecipe (recipe : String) (fault : RecipeFault)
deriving DecidableEq, Repr

def SpecError.message : SpecError → String
  | .malformed _ => "Malformed specification"
  | .invalidModId id =>
    "Invalid mod id '" ++ id ++ "': expected [a-z][a-z0-9_]\x7b1,63\x7d"
  | .invalidId id fault => "Invalid id '" ++ id ++ "': " ++ fault.message
  | .duplicateId id => "Duplicate id '" ++ id ++ "'"
  | .duplicateRecipe id => "Duplicate recipe id '" ++ id ++ "'"
  | .invalidColor id value =>
    "Invalid color '" ++ value ++ "' on '" ++ id ++ "': expected #rrggbb"
  | .unknownReference recipe reference =>
    "Recipe '" ++ recipe ++ "' references unknown local id '" ++ reference ++ "'"
  | .invalidRecipe recipe fault => "Recipe '" ++ recipe ++ "': " ++ fault.message

/-- Accepts slugs. -/
def checkId (id : String) : Except SpecError Unit :=
  match Slug.fault? id with
  | some fault => .error (.invalidId id fault)
  | none => .ok ()

/-- Accepts ids of mods. -/
def checkModId (id : String) : Except SpecError Unit :=
  if Slug.isModId id then .ok () else .error (.invalidModId id)

/-- The color of a hint on an entity. -/
def parseColor (id value : String) : Except SpecError Color :=
  match Color.parse? value with
  | some color => .ok color
  | none => .error (.invalidColor id value)

namespace EntitySpec

/-- Display name of an entity. -/
def title (entity : EntitySpec) : String := entity.displayName.getD (Slug.titleCase entity.id)

/-- Color of an entity, if it has a hint. -/
def checkedColor (entity : EntitySpec) : Except SpecError (Option Color) :=
  match entity.color with
  | some value => (parseColor entity.id value).map some
  | none => .ok none

/-- Texture source of an entity: copies come before a template. -/
def checkedSource (entity : EntitySpec) : Except SpecError TextureSource :=
  if !entity.copies.isEmpty then .ok (.copies entity.copies)
  else
    match entity.template with
    | some block => (checkId block).map fun _ => .template block
    | none => .ok .procedural

/-- The entity with every default filled in. -/
def expand (entity : EntitySpec) : Except SpecError Entity := do
  checkId entity.id
  let title := entity.title
  let material := Material.ofEntity entity.material entity.id title
  let derived := Profile.derive title entity.id entity.material material
  let profile :=
    match entity.profile with
    | some stated => derived.override stated
    | none => derived
  let color ← entity.checkedColor
  let source ← entity.checkedSource
  return {
    id := entity.id
    displayName := title
    material
    profile
    archetype := Archetype.ofEntity entity.id title
    color
    source }

end EntitySpec

/-- The block with every default filled in. -/
def BlockSpec.expand (block : BlockSpec) : Except SpecError Block := do
  let entity ← block.entity.expand
  let shape := block.shape.getD (Shape.ofId entity.id)
  return {
    entity
    shape
    dropsNothing := block.dropsNothing
    itemSource := .procedural
    signSource := if shape.isSign then some .procedural else none
    family := none }

/-- The recipe with every default filled in. It is named after its result unless it has an id. -/
def RecipeSpec.expand : RecipeSpec → Recipe
  | .shaped recipe =>
    .shaped (recipe.id.getD (Slug.localName recipe.result)) (recipe.category.getD .misc)
      recipe.pattern recipe.key recipe.result recipe.count
  | .shapeless recipe =>
    .shapeless (recipe.id.getD (Slug.localName recipe.result)) (recipe.category.getD .misc)
      recipe.ingredients recipe.result recipe.count
  | .cooking kind recipe =>
    .cooking (recipe.id.getD (Slug.localName recipe.result ++ "_from_" ++ kind.name)) kind
      (recipe.category.getD .misc) recipe.ingredient recipe.result recipe.experience
      (recipe.time.getD kind.time)

namespace Recipe

/-- Whether a grid has one to three rows of one to three characters. -/
def fitsGrid (pattern : List String) : Bool :=
  !pattern.isEmpty && pattern.length ≤ 3
    && pattern.all (fun row => !row.isEmpty && row.length ≤ 3)

/-- The first symbol of a grid without an ingredient. -/
def unknownSymbol? (pattern : List String) (key : List (Char × String)) : Option Char :=
  (pattern.flatMap String.toList).find? fun symbol =>
    symbol != ' ' && !key.any (fun entry => entry.1 == symbol)

/-- The fault of the grid of a recipe, if it has one. -/
def gridFault? : Recipe → Option RecipeFault
  | shaped _ _ pattern key _ _ =>
    if !fitsGrid pattern then some .badPattern
    else (unknownSymbol? pattern key).map .unknownSymbol
  | _ => none

/-- The declared name that a reference must have: whether it is a tag, and its local name. None
for a reference to another namespace. -/
def target? (modId reference : String) : Option (Bool × String) :=
  let (isTag, name) :=
    match Text.dropStart? "#" reference with
    | some rest => (true, rest)
    | none => (false, reference)
  match Text.cut? ':' name with
  | some (space, path) => if space == modId then some (isTag, path) else none
  | none => some (isTag, name)

/-- Whether a reference leads somewhere, given the declared ids and tags. -/
def resolves (modId : String) (known tags : List String) (reference : String) : Bool :=
  match target? modId reference with
  | some (true, tag) => tags.contains tag
  | some (false, id) => known.contains id
  | none => true

/-- Accepts recipes whose id, grid and references are in order. -/
def check (recipe : Recipe) (modId : String) (known tags : List String) :
    Except SpecError Unit := do
  unless Slug.isValid recipe.id do throw (.invalidRecipe recipe.id .badId)
  if let some fault := recipe.gridFault? then throw (.invalidRecipe recipe.id fault)
  if let some reference := recipe.references.find? (fun r => !resolves modId known tags r) then
    throw (.unknownReference recipe.id reference)

/-- Accepts recipes in order, given the ids of those before. -/
def checkAll (modId : String) (known tags : List String) :
    (seen : List String) → List Recipe → Except SpecError Unit
  | _, [] => .ok ()
  | seen, recipe :: rest => do
    if seen.contains recipe.id then throw (.duplicateRecipe recipe.id)
    recipe.check modId known tags
    checkAll modId known tags (recipe.id :: seen) rest

end Recipe

/-- Accepts wood types in order whose id and whose members' ids are slugs. -/
def WoodSpec.check (wood : WoodSpec) : Except SpecError Unit := do
  checkId wood.id
  wood.members.forM (fun member => checkId member.id)

/-- The first text that stands twice, given the texts before. -/
def firstRepeated? : (seen : List String) → List String → Option String
  | _, [] => none
  | seen, id :: rest => if seen.contains id then some id else firstRepeated? (id :: seen) rest

namespace Specification

/-- The specification with every default filled in. -/
def expand (spec : Specification) : Except SpecError Catalog := do
  checkModId spec.modId
  let items ← spec.items.mapM EntitySpec.expand
  let declared ← spec.blocks.mapM BlockSpec.expand
  spec.woods.forM WoodSpec.check
  let blocks := declared ++ spec.woods.flatMap WoodSpec.members
  let recipes := spec.woods.flatMap (fun wood => WoodSpec.recipes wood.id)
    ++ spec.recipes.map RecipeSpec.expand
  let known := items.map Entity.id ++ blocks.map Block.id
  if let some id := firstRepeated? [] known then throw (.duplicateId id)
  let tags := spec.woods.map (fun wood => WoodSpec.logsTag wood.id)
  Recipe.checkAll spec.modId known tags [] recipes
  return {
    modId := spec.modId
    items
    blocks
    families := spec.woods.map WoodSpec.family
    recipes }

end Specification

end Blockwright
