import Blockwright.Spec.Specification

/-!
# Reading specifications

The JSON form of a specification. Blocks mix their own members with those of their entity, and
recipes name their kind in a member of their own, so both are read whole before their parts.
-/

namespace Blockwright

open Json (Document Fault Mode)

namespace ProfileOverride

def fields : List String := ["materialHint", "traits", "surfaceStyles", "motifs"]

/-- A profile override with nothing stated. -/
def empty : ProfileOverride := { hint := none, traits := none, styles := none, motifs := none }

def readField (mode : Mode) (name : String) (value : Document) (stated : ProfileOverride) :
    Except Fault ProfileOverride := do
  match name with
  | "materialHint" => return { stated with hint := ← Document.readOptional Document.readText value }
  | "traits" =>
    let read := Document.readList (Document.readVariant mode Trait.ofName?)
    return { stated with traits := ← Document.readOptional read value }
  | "surfaceStyles" =>
    let read := Document.readList (Document.readVariant mode Style.ofName?)
    return { stated with styles := ← Document.readOptional read value }
  | "motifs" =>
    let read := Document.readList (Document.readVariant mode Motif.ofName?)
    return { stated with motifs := ← Document.readOptional read value }
  | _ => return stated

/-- Reads a profile override. -/
def read (mode : Mode) : Document → Except Fault ProfileOverride :=
  Document.readRecord mode fields [] (readField mode) empty

/-- The profile override of a whole text. -/
def ofText (source : String) : Except Fault ProfileOverride :=
  Document.readWhole (read .streamed) source

end ProfileOverride

namespace EntitySpec

def fields : List String :=
  ["id", "displayName", "material", "color", "textureProfile", "vanillaTemplate",
    "copyFromVanilla"]

def readField (mode : Mode) (name : String) (value : Document) (entity : EntitySpec) :
    Except Fault EntitySpec := do
  match name with
  | "id" => return { entity with id := ← value.readText }
  | "displayName" =>
    return { entity with displayName := ← Document.readOptional Document.readText value }
  | "material" => return { entity with material := ← Document.readOptional Document.readText value }
  | "color" => return { entity with color := ← Document.readOptional Document.readText value }
  | "textureProfile" =>
    return { entity with profile := ← Document.readOptional (ProfileOverride.read mode) value }
  | "vanillaTemplate" =>
    return { entity with template := ← Document.readOptional Document.readText value }
  | "copyFromVanilla" =>
    return { entity with copies := ← Document.readList Document.readText value }
  | _ => return entity

/-- Reads an entity. -/
def read (mode : Mode) : Document → Except Fault EntitySpec :=
  Document.readRecord mode fields ["id"] (readField mode) { id := "" }

end EntitySpec

namespace BlockSpec

/-- Fields of a block besides those of its entity. -/
def fields : List String := ["dropsNothing", "shape"]

/-- How deep a member of a block may nest. -/
def room : Nat := Document.depthLimit - 3

/-- Reads one member: a field of the block itself, or any other value. -/
def readField (name : String) (value : Document) (block : BlockSpec) : Except Fault BlockSpec := do
  match name with
  | "dropsNothing" => return { block with dropsNothing := ← value.readBool }
  | "shape" =>
    let read := Document.readVariant .streamed Shape.ofName?
    return { block with shape := ← Document.readOptional read value }
  | _ => return block

/-- Reads the members in order, those of the entity as any value. -/
def readMembers (seen : List String) (block : BlockSpec) :
    List (Option String × Document) → Except Fault BlockSpec
  | [] => .ok block
  | (none, _) :: _ => .error .form
  | (some key, value) :: rest => do
    if fields.contains key then
      if seen.contains key then throw .kind
      let block ← readField key value block
      readMembers (key :: seen) block rest
    else
      let _ ← value.toJson room
      readMembers seen block rest

/-- Reads a block. -/
def read : Document → Except Fault BlockSpec
  | .object members fault => do
    let block ← readMembers [] { entity := { id := "" } } members
    Document.finished fault
    let others := members.filter fun member =>
      match member.1 with
      | some key => EntitySpec.fields.contains key
      | none => false
    let entity ← EntitySpec.read .buffered (.object others none)
    return { block with entity }
  | other => .error other.mismatch

end BlockSpec

namespace WoodSpec

def fields : List String := ["id", "displayName"]

def readField (name : String) (value : Document) (wood : WoodSpec) : Except Fault WoodSpec := do
  match name with
  | "id" => return { wood with id := ← value.readText }
  | "displayName" =>
    return { wood with displayName := ← Document.readOptional Document.readText value }
  | _ => return wood

/-- Reads a wood family. -/
def read : Document → Except Fault WoodSpec :=
  Document.readRecord .streamed fields ["id"] readField { id := "" }

end WoodSpec

namespace ShapedSpec

def fields : List String := ["id", "pattern", "key", "result", "count", "category"]

/-- Adds the ingredient of a symbol; the last of several with one symbol counts. -/
def insertSymbol (symbol : Char) (ingredient : String) :
    List (Char × String) → List (Char × String)
  | [] => [(symbol, ingredient)]
  | (other, old) :: rest =>
    if symbol < other then (symbol, ingredient) :: (other, old) :: rest
    else if symbol = other then (symbol, ingredient) :: rest
    else (other, old) :: insertSymbol symbol ingredient rest

/-- Reads the ingredients of symbols. -/
def readSymbols (key : List (Char × String)) :
    List (Option String × Document) → Except Fault (List (Char × String))
  | [] => .ok key
  | (none, _) :: _ => .error .form
  | (some symbols, value) :: rest =>
    match symbols.toList with
    | [symbol] => do
      let ingredient ← value.readText
      readSymbols (insertSymbol symbol ingredient key) rest
    | _ => .error .kind

/-- Reads the key of a grid. -/
def readKey : Document → Except Fault (List (Char × String))
  | .object members fault => do
    let key ← readSymbols [] members
    Document.finished fault
    return key
  | other => .error other.mismatch

def readField (name : String) (value : Document) (recipe : ShapedSpec) :
    Except Fault ShapedSpec := do
  match name with
  | "id" => return { recipe with id := ← Document.readOptional Document.readText value }
  | "pattern" => return { recipe with pattern := ← Document.readList Document.readText value }
  | "key" => return { recipe with key := ← readKey value }
  | "result" => return { recipe with result := ← value.readText }
  | "count" => return { recipe with count := ← value.readWord }
  | "category" =>
    let read := Document.readVariant .buffered CraftingCategory.ofName?
    return { recipe with category := ← Document.readOptional read value }
  | _ => return recipe

/-- Reads a recipe laid out on a grid. -/
def read : Document → Except Fault ShapedSpec :=
  Document.readRecord .buffered fields ["pattern", "key", "result"] readField {}

end ShapedSpec

namespace ShapelessSpec

def fields : List String := ["id", "ingredients", "result", "count", "category"]

def readField (name : String) (value : Document) (recipe : ShapelessSpec) :
    Except Fault ShapelessSpec := do
  match name with
  | "id" => return { recipe with id := ← Document.readOptional Document.readText value }
  | "ingredients" =>
    return { recipe with ingredients := ← Document.readList Document.readText value }
  | "result" => return { recipe with result := ← value.readText }
  | "count" => return { recipe with count := ← value.readWord }
  | "category" =>
    let read := Document.readVariant .buffered CraftingCategory.ofName?
    return { recipe with category := ← Document.readOptional read value }
  | _ => return recipe

/-- Reads a recipe without a layout. -/
def read : Document → Except Fault ShapelessSpec :=
  Document.readRecord .buffered fields ["ingredients", "result"] readField {}

end ShapelessSpec

namespace CookingSpec

def fields : List String :=
  ["id", "ingredient", "result", "experience", "cookingTime", "category"]

def readField (name : String) (value : Document) (recipe : CookingSpec) :
    Except Fault CookingSpec := do
  match name with
  | "id" => return { recipe with id := ← Document.readOptional Document.readText value }
  | "ingredient" => return { recipe with ingredient := ← value.readText }
  | "result" => return { recipe with result := ← value.readText }
  | "experience" => return { recipe with experience := ← value.readDouble }
  | "cookingTime" => return { recipe with time := ← Document.readOptional Document.readWord value }
  | "category" =>
    let read := Document.readVariant .buffered CookingCategory.ofName?
    return { recipe with category := ← Document.readOptional read value }
  | _ => return recipe

/-- Reads a cooking recipe. -/
def read : Document → Except Fault CookingSpec :=
  Document.readRecord .buffered fields ["ingredient", "result"] readField {}

end CookingSpec

namespace RecipeSpec

/-- How deep a part of a recipe may nest. -/
def room : Nat := Document.depthLimit - 3

/-- Reader of the recipes of the named kind. -/
def reader? : String → Option (Document → Except Fault RecipeSpec)
  | "shaped" => some fun parts => (ShapedSpec.read parts).map .shaped
  | "shapeless" => some fun parts => (ShapelessSpec.read parts).map .shapeless
  | "smelting" => some fun parts => (CookingSpec.read parts).map (.cooking .smelting)
  | "blasting" => some fun parts => (CookingSpec.read parts).map (.cooking .blasting)
  | "smoking" => some fun parts => (CookingSpec.read parts).map (.cooking .smoking)
  | "campfire_cooking" => some fun parts => (CookingSpec.read parts).map (.cooking .campfire)
  | _ => none

/-- Reads the kind of a recipe. -/
def readKind (value : Document) : Except Fault (Document → Except Fault RecipeSpec) := do
  Document.variantNamed reader? (← value.readText)

/-- Reads the kind among members; the others pass as any value. -/
def readMembers (reader : Option (Document → Except Fault RecipeSpec)) :
    List (Option String × Document) → Except Fault (Option (Document → Except Fault RecipeSpec))
  | [] => .ok reader
  | (none, _) :: _ => .error .form
  | (some key, value) :: rest => do
    if key = "type" then
      if reader.isSome then throw .kind
      let found ← readKind value
      readMembers (some found) rest
    else
      let _ ← value.toJson room
      readMembers reader rest

/-- Reads a recipe: an object with its kind among the members, or an array that starts with it. -/
def read : Document → Except Fault RecipeSpec
  | .object members fault => do
    let reader? ← readMembers none members
    Document.finished fault
    match reader? with
    | some reader => reader (.object (members.filter (·.1 != some "type")) none)
    | none => throw .kind
  | .array [] fault => do
    Document.finished fault
    throw .kind
  | .array (kind :: parts) fault => do
    let reader ← readKind kind
    let _ ← Document.toElements room parts
    Document.finished fault
    reader (.array parts none)
  | other => .error other.mismatch

end RecipeSpec

namespace Specification

def fields : List String := ["modId", "items", "blocks", "woodTypes", "recipes"]

def readField (name : String) (value : Document) (spec : Specification) :
    Except Fault Specification := do
  match name with
  | "modId" => return { spec with modId := ← value.readText }
  | "items" => return { spec with items := ← Document.readList (EntitySpec.read .streamed) value }
  | "blocks" => return { spec with blocks := ← Document.readList BlockSpec.read value }
  | "woodTypes" => return { spec with woods := ← Document.readList WoodSpec.read value }
  | "recipes" => return { spec with recipes := ← Document.readList RecipeSpec.read value }
  | _ => return spec

/-- Reads a specification. -/
def read : Document → Except Fault Specification :=
  Document.readRecord .streamed fields ["modId"] readField { modId := "" }

/-- The specification of a whole text. -/
def ofText (source : String) : Except Fault Specification := Document.readWhole read source

end Specification

end Blockwright
