import Blockwright.Assets.Mapping
import Blockwright.Proofs.Json.Tidy
import Blockwright.Proofs.Tree.Location

/-!
# What files name

Models name textures and a parent, and block states name models. A file of a mod resolves among
files if what it names in the namespace of the mod is there.
-/

namespace Blockwright

/-! ## What is named -/

namespace Json

/-- The texts among the values of an object. -/
def memberTexts : Json → List String
  | object members => members.filterMap fun member => member.2.text?
  | _ => []

/-- Locations of the textures that a model shows. -/
def textureNames (model : Json) : List String :=
  ((model.get? "textures").map memberTexts).getD []

/-- Location of the parent of a model. -/
def parentName? (model : Json) : Option String := (model.get? "parent").bind text?

mutual

/-- Locations of the models that a block state names, wherever they stand. -/
def modelNames : Json → List String
  | array elements => elementModelNames elements
  | object members => memberModelNames members
  | _ => []

/-- Locations of the models that elements name. -/
def elementModelNames : List Json → List String
  | [] => []
  | element :: rest => modelNames element ++ elementModelNames rest

/-- Locations of the models that members name. -/
def memberModelNames : List (String × Json) → List String
  | [] => []
  | (key, value) :: rest =>
    (if key = "model" then value.text?.toList else []) ++ modelNames value ++ memberModelNames rest

end

theorem mem_elementModelNames {name : String} {elements : List Json} :
    name ∈ elementModelNames elements ↔ ∃ element ∈ elements, name ∈ element.modelNames := by
  induction elements with
  | nil => simp [elementModelNames]
  | cons element rest ih => simp [elementModelNames, ih]

theorem mem_memberModelNames {name : String} {members : List (String × Json)} :
    name ∈ memberModelNames members ↔
      ∃ member ∈ members, member = ("model", text name) ∨ name ∈ member.2.modelNames := by
  induction members with
  | nil => simp [memberModelNames]
  | cons member rest ih =>
    obtain ⟨key, value⟩ := member
    have named : name ∈ (if key = "model" then value.text?.toList else []) ↔
        (key, value) = ("model", text name) := by
      by_cases same : key = "model"
      · cases value <;> simp [same, text?, eq_comm]
      · simp [same]
    simp only [memberModelNames, List.mem_append, named, ih, List.exists_mem_cons_iff]

/-- A model that an object names stands in one of its members. -/
theorem mem_modelNames_ofMembers {name : String} {members : List (String × Json)}
    (named : name ∈ (ofMembers members).modelNames) :
    ∃ member ∈ members, member = ("model", text name) ∨ name ∈ member.2.modelNames := by
  obtain ⟨member, isMember, found⟩ := mem_memberModelNames.1 named
  exact ⟨member, mem_of_mem_sortMembers isMember, found⟩

theorem mem_modelNames_single {key name : String} {value : Json} (other : key ≠ "model") :
    name ∈ (single key value).modelNames ↔ name ∈ value.modelNames := by
  simp [single, modelNames, memberModelNames, other]

end Json

/-- The value that a text file holds. -/
def TreeFile.json? (file : TreeFile) : Option Json :=
  match file.contents with
  | .text value => (Json.parse value).toOption
  | _ => none

/-- A tidy value is what its file holds. -/
theorem TreeFile.json?_ofText {value : Json}
    (tidy : value.Tidy Json.Number.IsExact Json.Document.depthLimit) (path : String) :
    (TreeFile.ofText path value.pretty).json? = some value := by
  simp [json?, ofText, tidy.parse_pretty, Except.toOption]

/-- Whether there is a texture at the path that a location leads to. -/
def HasTexture (files : List TreeFile) (location : String) : Prop :=
  ∃ file ∈ files, file.path = Location.textureFile location ∧ file.isTexture = true

/-- Whether there is a file at the path of the model that a location leads to. -/
def HasModel (files : List TreeFile) (location : String) : Prop :=
  ∃ file ∈ files, file.path = Location.modelFile location

/-- Parents that the tables of items and shapes take from the base game. -/
def Location.baseParents : List String :=
  "minecraft:item/generated" :: heldRules.map Rule.variant
    ++ Shape.all.flatMap fun shape => shape.models.filterMap ModelTemplate.parent

theorem Location.space_of_mem_baseParents {location : String}
    (ofBase : location ∈ baseParents) : space location = vanilla := by
  have each : ∀ location ∈ baseParents, space location = vanilla := by decide +kernel
  exact each location ofBase

/-- Whether there is a file of a block model of a mod that a location leads to. -/
def HasBlockModel (modId : String) (files : List TreeFile) (location : String) : Prop :=
  ∃ name, Location.modelFile location = Path.model modId .block name ∧ HasModel files location

/-- Whether what a file names is there, if it is a model or a block state of a mod. -/
structure Resolves (modId : String) (files : List TreeFile) (file : TreeFile) : Prop where
  /-- A model shows textures that are there. -/
  textures : ∀ kind name, file.path = Path.model modId kind name →
    ∃ model, file.json? = some model ∧ ∀ location ∈ model.textureNames, HasTexture files location
  /-- A model has no parent in the namespace of the mod or one that is there, unless the mod shares
  its namespace with the base game. -/
  parents : ∀ kind name, file.path = Path.model modId kind name →
    ∃ model, file.json? = some model ∧ ∀ location, model.parentName? = some location →
      Location.space location = modId → HasModel files location ∨
        modId = Location.vanilla ∧ location ∈ Location.baseParents
  /-- A block state names block models that are there. -/
  models : ∀ id, file.path = Path.blockState modId id →
    ∃ state, file.json? = some state ∧ ∀ location ∈ state.modelNames,
      HasBlockModel modId files location

/-! ## Single files -/

namespace Json

theorem textureNames_ofMembers {members : List (String × Json)} {textures : Json}
    (different : (members.map Prod.fst).Nodup) (isMember : ("textures", textures) ∈ members) :
    (ofMembers members).textureNames = textures.memberTexts := by
  rw [textureNames, (get?_ofMembers different).2 isMember]
  rfl

theorem parentName?_ofMembers {members : List (String × Json)} {parent : Json}
    (different : (members.map Prod.fst).Nodup) (isMember : ("parent", parent) ∈ members) :
    (ofMembers members).parentName? = parent.text? := by
  rw [parentName?, (get?_ofMembers different).2 isMember]
  rfl

theorem mem_memberTexts_ofMembers {name : String} {members : List (String × Json)}
    (named : name ∈ (ofMembers members).memberTexts) :
    ∃ member ∈ members, member.2.text? = some name := by
  obtain ⟨member, isMember, hasText⟩ := List.mem_filterMap.1 named
  exact ⟨member, mem_of_mem_sortMembers isMember, hasText⟩

end Json

namespace Resolves

variable {modId : String} {files : List TreeFile} {file : TreeFile}

/-- What is there stays there when files are added. -/
theorem mono {more : List TreeFile} (included : ∀ file ∈ files, file ∈ more)
    (resolves : Resolves modId files file) : Resolves modId more file where
  textures kind name isModel := by
    obtain ⟨model, holds, named⟩ := resolves.textures kind name isModel
    refine ⟨model, holds, fun location isNamed => ?_⟩
    obtain ⟨target, isFile, found⟩ := named location isNamed
    exact ⟨target, included target isFile, found⟩
  parents kind name isModel := by
    obtain ⟨model, holds, named⟩ := resolves.parents kind name isModel
    refine ⟨model, holds, fun location isNamed inside =>
      (named location isNamed inside).imp_left ?_⟩
    rintro ⟨target, isFile, found⟩
    exact ⟨target, included target isFile, found⟩
  models id isState := by
    obtain ⟨state, holds, named⟩ := resolves.models id isState
    refine ⟨state, holds, fun location isNamed => ?_⟩
    obtain ⟨name, isBlockModel, target, isFile, found⟩ := named location isNamed
    exact ⟨name, isBlockModel, target, included target isFile, found⟩

/-- A texture names nothing. -/
theorem of_texture {front : String} (isTexture : file.path = front ++ ".png") :
    Resolves modId files file where
  textures _ _ isModel := absurd (isTexture.symm.trans isModel) Path.ne_of_ending
  parents _ _ isModel := absurd (isTexture.symm.trans isModel) Path.ne_of_ending
  models _ isState := absurd (isTexture.symm.trans isState) Path.ne_of_ending

/-- The display names name nothing. -/
theorem of_language (isLanguage : file.path = Path.language modId) :
    Resolves modId files file where
  textures kind name isModel :=
    absurd (isLanguage.symm.trans isModel) (Path.language_ne_model modId kind name)
  parents kind name isModel :=
    absurd (isLanguage.symm.trans isModel) (Path.language_ne_model modId kind name)
  models id isState :=
    absurd (isLanguage.symm.trans isState) (Path.language_ne_blockState modId id)

theorem of_model {model : Json}
    (tidy : model.Tidy Json.Number.IsExact Json.Document.depthLimit) (kind : AssetKind)
    (name : String) (textures : ∀ location ∈ model.textureNames, HasTexture files location)
    (parents : ∀ location, model.parentName? = some location →
      location ∈ Location.baseParents ∨ HasModel files location) :
    Resolves modId files (.ofText (Path.model modId kind name) model.pretty) where
  textures _ _ _ := ⟨model, TreeFile.json?_ofText tidy _, textures⟩
  parents _ _ _ := by
    refine ⟨model, TreeFile.json?_ofText tidy _, fun location isParent inside => ?_⟩
    rcases parents location isParent with ofBase | there
    · exact .inr ⟨inside.symm.trans (Location.space_of_mem_baseParents ofBase), ofBase⟩
    · exact .inl there
  models id isState := absurd isState.symm (Path.blockState_ne_model modId id kind name)

theorem of_blockState {state : Json}
    (tidy : state.Tidy Json.Number.IsExact Json.Document.depthLimit) (id : String)
    (models : ∀ location ∈ state.modelNames, HasBlockModel modId files location) :
    Resolves modId files (.ofText (Path.blockState modId id) state.pretty) where
  textures kind name isModel := absurd isModel (Path.blockState_ne_model modId id kind name)
  parents kind name isModel := absurd isModel (Path.blockState_ne_model modId id kind name)
  models _ _ := ⟨state, TreeFile.json?_ofText tidy _, models⟩

end Resolves

end Blockwright
