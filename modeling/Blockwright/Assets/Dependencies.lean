import Blockwright.Assets.VanillaModel

/-!
# Dependencies of a block

The files that a block of the base game is made of: its block state, the models that it names with
their parents, and the textures that the variables of these models lead to. Nothing is guessed from
names.
-/

namespace Blockwright

/-- The files that a block is made of. -/
structure Dependencies where
  /-- Block state, if it can be read. -/
  state : Option String := none
  /-- Models, ascending. -/
  models : List String := []
  /-- Textures, ascending. -/
  textures : List String := []
deriving DecidableEq, Repr

namespace Dependencies

/-- Whether there are no files. -/
def isEmpty (found : Dependencies) : Bool :=
  found.state.isNone && found.models.isEmpty && found.textures.isEmpty

/-- Most models of a chain. -/
def chainLimit : Nat := 32

/-- What has been read of models, by their locations, latest first; nothing for a location without
a model. -/
abbrev Models := List (String × Option VanillaModel)

/-- The model at a location, read from the source the first time. -/
def readOnce (source : AssetSource) (location : String) (models : Models) :
    Option VanillaModel × Models :=
  match models.lookup location with
  | some found => (found, models)
  | none =>
    let found := source.model? location
    (found, (location, found) :: models)

/-- The model at a location, its parent, and so on, with their locations. The chain ends at a model
that is missing or that has been visited. -/
def chain (source : AssetSource) :
    (room : Nat) → (visited : List String) → (location : String) → Models →
      List (String × VanillaModel) × Models
  | 0, _, _, models => ([], models)
  | room + 1, visited, location, models =>
    if visited.contains location then ([], models)
    else
      match readOnce source location models with
      | (none, models) => ([], models)
      | (some model, models) =>
        match model.parent with
        | none => ([(location, model)], models)
        | some parent =>
          let (parents, models) :=
            chain source room (location :: visited) (Location.canonical parent) models
          ((location, model) :: parents, models)

/-- The chains of models. What has been read for one is there for the next. -/
def chains (source : AssetSource) :
    (roots : List String) → Models → List (List (String × VanillaModel)) × Models
  | [], models => ([], models)
  | root :: rest, models =>
    let (first, models) := chain source chainLimit [] root models
    let (others, models) := chains source rest models
    (first :: others, models)

/-- The texture variables of a chain, those of a child before those of its parent. -/
def bindings (chain : List (String × VanillaModel)) : List (String × String) :=
  chain.flatMap fun entry => entry.2.textures

/-- The location that a value leads to. A value that starts with a number sign refers to a
variable. There is none if a variable is not defined or the references go on for too long. -/
def location? (bindings : List (String × String)) : (room : Nat) → (value : String) →
    Option String
  | 0, _ => none
  | room + 1, value =>
    match Text.dropStart? "#" value with
    | none => some value
    | some key =>
      match bindings.lookup key with
      | none => none
      | some value => location? bindings room value

/-- The locations that variables lead to. Among as many references as there are variables, one
that does not end has to repeat a variable. -/
def locations (bindings : List (String × String)) : List String :=
  bindings.filterMap fun entry =>
    (bindings.lookup entry.1).bind (location? bindings (bindings.length + 1))

/-- The texture files of a chain. -/
def texturesOf (chain : List (String × VanillaModel)) : List String :=
  (locations (bindings chain)).map fun location =>
    Location.textureFile (Location.canonical location)

/-- The files of the block with an id. -/
def ofBlock (source : AssetSource) (block : String) : Dependencies :=
  match source.state? block with
  | none => {}
  | some state =>
    let (chains, _) := chains source state.models []
    { state := some (Location.blockStateFile block)
      models := Text.ascending (chains.flatten.map fun entry => Location.modelFile entry.1)
      textures := Text.ascending (chains.flatMap texturesOf) }

/-- The paths of the files. -/
def toJson (found : Dependencies) : Json := Json.ofMembers [
  ("blockstatePath", .optionalText found.state),
  ("modelPaths", .texts found.models),
  ("texturePaths", .texts found.textures)]

end Dependencies

end Blockwright
