import Blockwright.Proofs.Assets.References
import Blockwright.Proofs.Data.Folders
import Blockwright.Proofs.Data.Forms
import Blockwright.Proofs.Json.Parts
import Blockwright.Proofs.Spec.WellFormed

/-!
# References of data files

Recipes are checked by cutting their references at the first colon, and written by qualifying those
without one. Both readings agree, so that what recipes, loot tables and tags name in their mod is
declared, or is a tag that has its file.
-/

namespace Blockwright

open Recipe (Names)

/-! ## What is named -/

/-- Whether there is a file of a tag for one kind of members. -/
def HasTag (folders : Folders) (files : List TreeFile) (space : String) (kind : AssetKind)
    (name : String) : Prop :=
  ∃ file ∈ files, file.path = Path.tag folders space kind name

/-- Whether an ingredient of a recipe file, if it is from the mod, is declared or a tag that has
both of its files. -/
structure Ingredient.Known (catalog : Catalog) (folders : Folders) (files : List TreeFile)
    (part : Json) : Prop where
  item : ∀ name, part.get? "item" = some (.text (catalog.modId ++ ":" ++ name)) →
    name ∈ catalog.items.map Entity.id ∨ name ∈ catalog.blocks.map Block.id
  tag : ∀ name, part.get? "tag" = some (.text (catalog.modId ++ ":" ++ name)) →
    ∀ kind, HasTag folders files catalog.modId kind name

/-- Whether the entries of a pool and the properties that a condition asks for are those of a
block. -/
structure Loot.Concerns (item : String) (part : Json) : Prop where
  entries : ∀ entries, part.get? "entries" = some (.array entries) →
    ∀ entry ∈ entries, entry.get? "name" = some (.text item)
  property : part.get? "condition" = some (.text "minecraft:block_state_property") →
    part.get? "block" = some (.text item)

/-- Whether the values of a tag ascend and those from the mod are its blocks, or tags that have a
file for the same kind. -/
structure Tag.Lists (catalog : Catalog) (folders : Folders) (files : List TreeFile)
    (kind : AssetKind) (values : List String) : Prop where
  ascending : values.Pairwise (· < ·)
  blocks : ∀ name, catalog.modId ++ ":" ++ name ∈ values → name ∈ catalog.blockIds
  tags : ∀ name, "#" ++ catalog.modId ++ ":" ++ name ∈ values →
    HasTag folders files catalog.modId kind name

/-- Whether a file is a recipe, a loot table or a tag that names nothing of its mod that is not
there. -/
inductive Catalog.Closed (catalog : Catalog) (folders : Folders) (files : List TreeFile)
    (file : TreeFile) : Prop where
  | recipe (recipe : Recipe) (json : Json) (isRecipe : recipe ∈ catalog.recipes)
      (path : file.path = Path.recipe folders catalog.modId recipe.id)
      (holds : file.json? = some json) (known : json.Every (Ingredient.Known catalog folders files))
  | lootTable (block : Block) (json : Json) (isBlock : block ∈ catalog.blocks)
      (path : file.path = Path.lootTable folders catalog.modId block.id)
      (holds : file.json? = some json)
      (concerns : json.Every (Loot.Concerns (catalog.modId ++ ":" ++ block.id)))
  | tag (tag : Tag) (json : Json) (values : List String)
      (path : file.path = Path.tag folders tag.space tag.kind tag.name)
      (holds : file.json? = some json) (keeps : json.get? "replace" = some (.bool false))
      (isValues : json.get? "values" = some (.texts values))
      (lists : Tag.Lists catalog folders files tag.kind values)

theorem TreeFile.json?_ofText_reread {value : Json}
    (tidy : value.Tidy Json.Number.Legible Json.Document.depthLimit) (path : String) :
    (TreeFile.ofText path value.pretty).json? = some value.reread := by
  simp [json?, ofText, tidy.parse_pretty_reread, Except.toOption]

/-! ## Ingredients -/

namespace Ingredient

variable {modId text reference id name : String}

/-- What is qualified to a name of the mod names it. -/
theorem names_of_qualifyId (qualified : qualifyId modId text = modId ++ ":" ++ name) :
    Names modId text name := by
  rw [qualifyId] at qualified
  split at qualified
  · rw [qualified]
    exact .spaced name
  · next uncut =>
    have same : text = name := by simpa using qualified
    rw [← same]
    exact .bare text (by simpa using uncut)

theorem qualify_eq_item (qualified : qualify modId reference = .item id) :
    (∀ tag, reference ≠ "#" ++ tag) ∧ qualifyId modId reference = id := by
  rw [qualify] at qualified
  split at qualified
  · cases qualified
  · next noTag =>
    cases qualified
    refine ⟨?_, rfl⟩
    rintro tag marked
    rw [Text.dropStart?_eq_some.2 marked] at noTag
    cases noTag

theorem qualify_eq_tag (qualified : qualify modId reference = .tag id) :
    ∃ tag, reference = "#" ++ tag ∧ qualifyId modId tag = id := by
  rw [qualify] at qualified
  split at qualified
  · next tag marked =>
    cases qualified
    exact ⟨tag, Text.dropStart?_eq_some.1 marked, rfl⟩
  · cases qualified

theorem qualifyId_of_isSlug (slug : Slug.IsSlug id) : qualifyId modId id = modId ++ ":" ++ id := by
  have uncut : ':' ∉ id.toList := Slug.not_mem_of_isValid (Slug.isValid_iff.2 slug) (by decide)
  rw [qualifyId, if_neg (by simpa using uncut)]

/-! ### Tests of ingredients -/

/-- Whether a test passes every value that names neither an item nor a tag. -/
def SparesOthers (test : Json → Prop) : Prop :=
  ∀ part : Json, part.get? "item" = none → part.get? "tag" = none → test part

namespace SparesOthers

variable {test : Json → Prop}

theorem every_text (spares : SparesOthers test) (value : String) : (Json.text value).Every test :=
  Json.every_text (spares _ rfl rfl)

theorem every_number (spares : SparesOthers test) (value : Json.Number) :
    (Json.number value).Every test :=
  Json.every_number (spares _ rfl rfl)

theorem every_double (spares : SparesOthers test) (value : Float) :
    (Json.double value).Every test := by
  rw [Json.double]
  split
  · exact spares.every_number _
  · exact Json.every_null (spares _ rfl rfl)

theorem every_array (spares : SparesOthers test) {elements : List Json}
    (each : ∀ element ∈ elements, element.Every test) : (Json.array elements).Every test :=
  Json.every_array (spares _ rfl rfl) each

theorem every_ofMembers (spares : SparesOthers test) {members : List (String × Json)}
    (noItem : "item" ∉ members.map Prod.fst) (noTag : "tag" ∉ members.map Prod.fst)
    (each : ∀ member ∈ members, member.2.Every test) : (Json.ofMembers members).Every test :=
  Json.every_ofMembers
    (spares _ (Json.get?_ofMembers_eq_none.2 noItem) (Json.get?_ofMembers_eq_none.2 noTag)) each

theorem every_ingredient (spares : SparesOthers test) {ingredient : Ingredient}
    (whole : test ingredient.toJson) : ingredient.toJson.Every test := by
  cases ingredient with
  | item id => exact Json.every_single whole (spares.every_text id)
  | tag id => exact Json.every_single whole (spares.every_text id)

end SparesOthers

theorem sparesOthers_known {catalog : Catalog} {folders : Folders} {files : List TreeFile} :
    SparesOthers (Known catalog folders files) := by
  intro part noItem noTag
  exact ⟨fun name isItem => by simp [noItem] at isItem, fun name isTag => by simp [noTag] at isTag⟩

end Ingredient

theorem Catalog.WellFormed.qualifyId_blockId {catalog : Catalog} (wellFormed : catalog.WellFormed)
    {id : String} (isBlock : id ∈ catalog.blockIds) :
    Ingredient.qualifyId catalog.modId id = catalog.modId ++ ":" ++ id := by
  obtain ⟨block, found, rfl⟩ := List.mem_map.1 isBlock
  exact Ingredient.qualifyId_of_isSlug (wellFormed.blocks block found).entity.id

/-! ## Recipes -/

namespace Recipe

variable {catalog : Catalog} {folders : Folders} {files : List TreeFile} {recipe : Recipe}
  {json : Json}

theorem every_craftingResult {test : Json → Prop} (spares : Ingredient.SparesOthers test)
    (modId result : String) (count : UInt32) : (craftingResult modId result count).Every test := by
  refine spares.every_ofMembers (by simp) (by simp) ?_
  simp only [List.forall_mem_cons, List.not_mem_nil, false_implies, implies_true, and_true]
  exact ⟨spares.every_text _, spares.every_number _⟩

theorem every_key {test : Json → Prop} {modId : String} {key : List (Char × String)}
    (spares : Ingredient.SparesOthers test)
    (each : ∀ entry ∈ key, (Ingredient.qualify modId entry.2).toJson.Every test) :
    (Json.ofMembers (key.map fun entry =>
      (entry.1.toString, (Ingredient.qualify modId entry.2).toJson))).Every test := by
  have long : ∀ name : String, name.length ≠ 1 → name ∉ (key.map fun entry =>
      (entry.1.toString, (Ingredient.qualify modId entry.2).toJson)).map Prod.fst := by
    rintro name notOne isSymbol
    simp only [List.map_map, List.mem_map] at isSymbol
    obtain ⟨entry, -, rfl⟩ := isSymbol
    exact notOne (String.length_singleton (c := entry.1))
  refine spares.every_ofMembers (long _ (by decide)) (long _ (by decide)) fun member isMember => ?_
  obtain ⟨entry, isEntry, rfl⟩ := List.mem_map.1 isMember
  exact each entry isEntry

/-- A test that says something about ingredients only holds of all parts of a recipe file if it
holds of the ingredients. -/
theorem every_toJson {test : Json → Prop} {modId : String} (spares : Ingredient.SparesOthers test)
    (each : ∀ reference ∈ recipe.references, test (Ingredient.qualify modId reference).toJson)
    (written : recipe.toJson modId = .ok json) : json.Every test := by
  have ingredient : ∀ reference ∈ recipe.references,
      (Ingredient.qualify modId reference).toJson.Every test := fun reference isReference =>
    spares.every_ingredient (each reference isReference)
  cases recipe with
  | shaped id category pattern key result count =>
    cases written
    refine spares.every_ofMembers (by simp) (by simp) ?_
    simp only [List.forall_mem_cons, List.not_mem_nil, false_implies, implies_true, and_true]
    refine ⟨spares.every_text _, spares.every_text _, ?_, ?_,
      every_craftingResult spares modId result count⟩
    · refine spares.every_array fun element isElement => ?_
      obtain ⟨row, -, rfl⟩ := List.mem_map.1 isElement
      exact spares.every_text row
    · exact every_key spares fun entry isEntry =>
        ingredient entry.2 (List.mem_append_left _ (List.mem_map_of_mem isEntry))
  | shapeless id category ingredients result count =>
    cases written
    refine spares.every_ofMembers (by simp) (by simp) ?_
    simp only [List.forall_mem_cons, List.not_mem_nil, false_implies, implies_true, and_true]
    refine ⟨spares.every_text _, spares.every_text _, ?_,
      every_craftingResult spares modId result count⟩
    refine spares.every_array fun element isElement => ?_
    obtain ⟨reference, isReference, rfl⟩ := List.mem_map.1 isElement
    exact ingredient reference (List.mem_append_left _ isReference)
  | cooking id kind category used result experience time =>
    rw [toJson] at written
    split at written
    · cases written
    · split at written
      · cases written
      · cases written
        refine spares.every_ofMembers (by simp) (by simp) ?_
        simp only [List.forall_mem_cons, List.not_mem_nil, false_implies, implies_true, and_true]
        exact ⟨spares.every_text _, spares.every_text _, ingredient used List.mem_cons_self,
          Json.every_single (spares _ rfl rfl) (spares.every_text _), spares.every_double _,
          spares.every_number _⟩

theorem known_reread {part : Json} (known : Ingredient.Known catalog folders files part) :
    Ingredient.Known catalog folders files part.reread where
  item name isItem := known.item name (Json.get?_reread_eq_text.1 isItem)
  tag name isTag := known.tag name (Json.get?_reread_eq_text.1 isTag)

theorem known_of_wellFormed (wellFormed : recipe.WellFormed catalog)
    (tagged : ∀ family ∈ catalog.families, ∀ kind,
      HasTag folders files catalog.modId kind (WoodSpec.logsTag family.id))
    {reference : String} (isReference : reference ∈ recipe.references) :
    Ingredient.Known catalog folders files
      (Ingredient.qualify catalog.modId reference).toJson where
  item name isItem := by
    cases qualified : Ingredient.qualify catalog.modId reference with
    | tag id =>
      rw [qualified] at isItem
      cases isItem
    | item id =>
      rw [qualified] at isItem
      cases isItem
      obtain ⟨unmarked, qualified⟩ := Ingredient.qualify_eq_item qualified
      exact wellFormed.items reference isReference unmarked name
        (Ingredient.names_of_qualifyId qualified)
  tag name isTag := by
    cases qualified : Ingredient.qualify catalog.modId reference with
    | item id =>
      rw [qualified] at isTag
      cases isTag
    | tag id =>
      rw [qualified] at isTag
      cases isTag
      obtain ⟨tag, marked, qualified⟩ := Ingredient.qualify_eq_tag qualified
      obtain ⟨family, isFamily, rfl⟩ := wellFormed.tags reference isReference tag marked name
        (Ingredient.names_of_qualifyId qualified)
      exact tagged family isFamily

theorem tidy_toJson (written : recipe.toJson catalog.modId = .ok json) :
    json.Tidy Json.Number.Legible Json.Document.depthLimit := by
  obtain ⟨members, rfl, -, tidy, -, -⟩ := toJson_eq_ok written
  exact Json.tidy_ofMembers (by decide) tidy

end Recipe

/-! ## Loot tables -/

namespace Loot

variable {item modId id : String}

theorem concerns_reread {part : Json} (concerns : Concerns item part) :
    Concerns item part.reread where
  entries entries isEntries entry isEntry := by
    obtain ⟨found, isFound, rfl⟩ := Json.get?_reread_eq_array isEntries
    obtain ⟨inner, isInner, rfl⟩ := Json.mem_rereadElements isEntry
    exact Json.get?_reread_eq_text.2 (concerns.entries found isFound inner isInner)
  property isProperty :=
    Json.get?_reread_eq_text.2 (concerns.property (Json.get?_reread_eq_text.1 isProperty))

theorem concerns_of_none {part : Json} (noEntries : part.get? "entries" = none)
    (noCondition : part.get? "condition" = none) : Concerns item part where
  entries entries isEntries := by
    rw [noEntries] at isEntries
    cases isEntries
  property isProperty := by
    rw [noCondition] at isProperty
    cases isProperty

theorem concerns_ofMembers {members : List (String × Json)}
    (noEntries : "entries" ∉ members.map Prod.fst)
    (noCondition : "condition" ∉ members.map Prod.fst) : Concerns item (.ofMembers members) :=
  concerns_of_none (Json.get?_ofMembers_eq_none.2 noEntries)
    (Json.get?_ofMembers_eq_none.2 noCondition)

theorem every_text (value : String) : (Json.text value).Every (Concerns item) :=
  Json.every_text (concerns_of_none rfl rfl)

theorem every_number (value : Json.Number) : (Json.number value).Every (Concerns item) :=
  Json.every_number (concerns_of_none rfl rfl)

theorem every_bool (value : Bool) : (Json.bool value).Every (Concerns item) :=
  Json.every_bool (concerns_of_none rfl rfl)

theorem every_array {elements : List Json}
    (each : ∀ element ∈ elements, element.Every (Concerns item)) :
    (Json.array elements).Every (Concerns item) :=
  Json.every_array (concerns_of_none rfl rfl) each

theorem every_whenProperty {property : String} (other : property ≠ "condition") (value : String) :
    (whenProperty item property value).Every (Concerns item) := by
  refine Json.every_ofMembers ⟨?_, fun _ => ?_⟩ ?_
  · intro entries isEntries
    rw [Json.get?_ofMembers (by simp)] at isEntries
    simp at isEntries
  · rw [Json.get?_ofMembers (by simp)]
    simp
  · simp only [List.forall_mem_cons, List.not_mem_nil, false_implies, implies_true, and_true]
    refine ⟨every_text _, every_text _, Json.every_single ⟨?_, ?_⟩ (every_text _)⟩
    · intro entries isEntries
      rw [Json.single_eq_ofMembers, Json.get?_ofMembers (by simp)] at isEntries
      simp at isEntries
    · intro isProperty
      rw [Json.single_eq_ofMembers, Json.get?_ofMembers (by simp)] at isProperty
      simp [Ne.symm other] at isProperty

theorem every_shapeMembers (item : String) (shape : Shape) :
    ∀ member ∈ shapeMembers item shape, member.2.Every (Concerns item) := by
  cases shape
  case door =>
    rw [shapeMembers, List.forall_mem_singleton]
    exact every_array (List.forall_mem_singleton.2 (every_whenProperty (by decide) "lower"))
  case slab =>
    rw [shapeMembers, List.forall_mem_singleton]
    refine every_array (List.forall_mem_singleton.2 ?_)
    refine Json.every_ofMembers (concerns_ofMembers (by simp) (by simp)) ?_
    simp only [List.forall_mem_cons, List.not_mem_nil, false_implies, implies_true, and_true]
    exact ⟨every_text _, every_bool _, every_number _,
      every_array (List.forall_mem_singleton.2 (every_whenProperty (by decide) "double"))⟩
  all_goals simp [shapeMembers]

theorem keys_shapeMembers (item : String) (shape : Shape) :
    ∀ key ∈ (shapeMembers item shape).map Prod.fst, key = "conditions" ∨ key = "functions" := by
  cases shape <;> simp [shapeMembers]

theorem every_table (modId id : String) (shape : Shape) :
    (table modId id shape).Every (Concerns (Ingredient.qualifyId modId id)) := by
  have otherKey : ∀ key, key ≠ "conditions" → key ≠ "functions" →
      key ∉ (shapeMembers (Ingredient.qualifyId modId id) shape).map Prod.fst := by
    intro key noConditions noFunctions isKey
    rcases keys_shapeMembers _ shape key isKey with same | same
    · exact noConditions same
    · exact noFunctions same
  have different : (([("type", Json.text "minecraft:item"),
      ("name", Json.text (Ingredient.qualifyId modId id))] ++
        shapeMembers (Ingredient.qualifyId modId id) shape).map Prod.fst).Nodup := by
    cases shape <;> simp [shapeMembers]
  refine Json.every_ofMembers (concerns_ofMembers (by simp) (by simp)) ?_
  simp only [List.forall_mem_cons, List.not_mem_nil, false_implies, implies_true, and_true]
  refine ⟨every_text _, every_array (List.forall_mem_singleton.2 ?_)⟩
  refine Json.every_ofMembers ⟨?_, ?_⟩ ?_
  · intro entries isEntries entry isEntry
    rw [Json.get?_ofMembers (by simp)] at isEntries
    simp at isEntries
    subst isEntries
    rw [List.mem_singleton.1 isEntry]
    exact (Json.get?_ofMembers different).2 (List.mem_cons_of_mem _ List.mem_cons_self)
  · intro isProperty
    rw [Json.get?_ofMembers (by simp)] at isProperty
    simp at isProperty
  · simp only [List.forall_mem_cons, List.not_mem_nil, false_implies, implies_true, and_true]
    refine ⟨every_number _, every_number _, every_array (List.forall_mem_singleton.2 ?_),
      every_array (List.forall_mem_singleton.2 ?_)⟩
    · refine Json.every_ofMembers (concerns_ofMembers ?_ ?_) fun member isMember => ?_
      · simpa using otherKey "entries" (by decide) (by decide)
      · simpa using otherKey "condition" (by decide) (by decide)
      · rcases List.mem_append.1 isMember with isCommon | isOwn
        · simp only [List.mem_cons, List.not_mem_nil, or_false] at isCommon
          rcases isCommon with rfl | rfl <;> exact every_text _
        · exact every_shapeMembers _ shape member isOwn
    · refine Json.every_single ⟨fun entries isEntries => ?_, fun isProperty => ?_⟩ (every_text _)
      · simp [Json.single, Json.get?, Json.lookup] at isEntries
      · simp [Json.single, Json.get?, Json.lookup] at isProperty

end Loot

/-! ## Tags -/

namespace Tag

theorem tidy_toJson (values : List String) :
    (toJson values).Tidy Json.Number.IsExact Json.Document.depthLimit := by
  refine Json.tidy_ofMembers (by decide) ?_
  simp only [List.forall_mem_cons, List.not_mem_nil, false_implies, implies_true, and_true]
  exact ⟨Json.tidy_bool _, Json.tidy_texts _ (by decide)⟩

theorem get?_toJson (values : List String) :
    (toJson values).get? "replace" = some (.bool false) ∧
      (toJson values).get? "values" = some (.texts values) :=
  ⟨(Json.get?_ofMembers (by simp)).2 List.mem_cons_self,
    (Json.get?_ofMembers (by simp)).2 (List.mem_cons_of_mem _ List.mem_cons_self)⟩

variable {catalog : Catalog} {folders : Folders} {files : List TreeFile}

theorem value_of_mem_entries
    (members : ∀ family ∈ catalog.families, ∀ role : WoodRole,
      role.blockId family.id ∈ catalog.blockIds)
    {entry : Entry} (isEntry : entry ∈ entries catalog) :
    (∃ id ∈ catalog.blockIds, entry.2 = Ingredient.qualifyId catalog.modId id) ∨
      ∃ family ∈ catalog.families,
        entry.2 = "#" ++ catalog.modId ++ ":" ++ WoodSpec.logsTag family.id := by
  cases isEntry_of_mem isEntry with
  | logs isFamily kind role => exact .inl ⟨_, members _ isFamily role, rfl⟩
  | burning isFamily kind => exact .inr ⟨_, isFamily, rfl⟩
  | wooden isFamily kind isName role => exact .inl ⟨_, members _ isFamily role, rfl⟩
  | tool isBlock isTool => exact .inl ⟨_, List.mem_map_of_mem isBlock, rfl⟩

theorem unmarked_of_isSlug {modId : String} (slug : Slug.IsSlug modId) (tag rest : String) :
    modId ++ ":" ++ rest ≠ "#" ++ tag := by
  obtain ⟨first, others, form, ⟨lower, -⟩, -⟩ := slug
  intro same
  have spelled := congrArg String.toList same
  simp only [String.toList_append, form, List.cons_append] at spelled
  obtain ⟨rfl, -⟩ := List.cons.inj spelled
  revert lower
  decide

theorem mem_values {entries : List Entry} {tag : Tag} {value : String} :
    value ∈ values entries tag ↔ (tag, value) ∈ entries := by
  simp [values, Text.mem_ascending]

theorem lists_values (wellFormed : catalog.WellFormed) (modId : Slug.IsSlug catalog.modId)
    (members : ∀ family ∈ catalog.families, ∀ role : WoodRole,
      role.blockId family.id ∈ catalog.blockIds)
    (tagged : ∀ family ∈ catalog.families, ∀ kind,
      HasTag folders files catalog.modId kind (WoodSpec.logsTag family.id)) (tag : Tag) :
    Lists catalog folders files tag.kind (values (entries catalog) tag) where
  ascending := Text.pairwise_ascending _
  blocks := by
    intro name isValue
    rcases value_of_mem_entries members (mem_values.1 isValue) with
      ⟨id, isBlock, same⟩ | ⟨family, -, same⟩
    · rw [wellFormed.qualifyId_blockId isBlock] at same
      have sameName : name = id := by simpa using same
      exact sameName ▸ isBlock
    · exact absurd same (by simpa [String.append_assoc] using unmarked_of_isSlug modId _ name)
  tags := by
    intro name isValue
    rcases value_of_mem_entries members (mem_values.1 isValue) with
      ⟨id, isBlock, same⟩ | ⟨family, isFamily, same⟩
    · rw [wellFormed.qualifyId_blockId isBlock] at same
      exact absurd same.symm (by simpa [String.append_assoc] using unmarked_of_isSlug modId _ id)
    · have sameName : name = WoodSpec.logsTag family.id := by simpa using same
      rw [sameName]
      exact tagged family isFamily tag.kind

end Tag

/-! ## Mods -/

theorem Specification.member_mem_blockIds {spec : Specification} {catalog : Catalog}
    (expanded : spec.expand = .ok catalog) {family : WoodFamily}
    (isFamily : family ∈ catalog.families) (role : WoodRole) :
    role.blockId family.id ∈ catalog.blockIds := by
  obtain ⟨items, declared, -, rfl⟩ := expand_eq_ok.1 expanded
  obtain ⟨wood, isWood, rfl⟩ := List.mem_map.1 isFamily
  refine List.mem_map.2 ⟨wood.member role, List.mem_append_right _ ?_, rfl⟩
  exact List.mem_flatMap.2 ⟨wood, isWood, List.mem_map_of_mem (WoodRole.mem_all role)⟩

namespace Catalog

variable {catalog : Catalog} {folders : Folders} {data files : List TreeFile}

theorem hasTag_logs (included : ∀ file ∈ catalog.tagFiles folders, file ∈ files)
    {family : WoodFamily} (isFamily : family ∈ catalog.families) (kind : AssetKind) :
    HasTag folders files catalog.modId kind (WoodSpec.logsTag family.id) := by
  have ofKind : ∃ value, ((⟨catalog.modId, kind, WoodSpec.logsTag family.id⟩ : Tag), value) ∈
      Tag.familyEntriesOf catalog.modId family kind :=
    ⟨_, List.mem_append_left _ (List.mem_append_left _ List.mem_cons_self)⟩
  obtain ⟨value, ofKind⟩ := ofKind
  have ofFamily : ((⟨catalog.modId, kind, WoodSpec.logsTag family.id⟩ : Tag), value) ∈
      Tag.familyEntries catalog.modId family := by
    rw [Tag.familyEntries]
    refine List.mem_append_left _ (List.mem_append.2 ?_)
    cases kind with
    | item => exact .inr ofKind
    | block => exact .inl ofKind
  have isEntry : ((⟨catalog.modId, kind, WoodSpec.logsTag family.id⟩ : Tag), value) ∈
      Tag.entries catalog :=
    List.mem_append_left _ (List.mem_flatMap.2 ⟨family, isFamily, ofFamily⟩)
  exact ⟨_, included _ (List.mem_map_of_mem (Tag.mem_tags.2 ⟨value, isEntry⟩)), rfl⟩

theorem closed_dataFiles {spec : Specification} (expanded : spec.expand = .ok catalog)
    (written : catalog.dataFiles folders = .ok data) (included : ∀ file ∈ data, file ∈ files) :
    ∀ file ∈ data, catalog.Closed folders files file := by
  have wellFormed := Specification.wellFormed_of_expand expanded
  have modId := Specification.isSlug_modId expanded
  have tagged : ∀ family ∈ catalog.families, ∀ kind,
      HasTag folders files catalog.modId kind (WoodSpec.logsTag family.id) :=
    fun family isFamily kind => hasTag_logs
      (fun file isTag => included file ((mem_dataFiles written).2 (.inr (.inr isTag))))
      isFamily kind
  intro file isFile
  rcases (mem_dataFiles written).1 isFile with
    ⟨recipe, isRecipe, json, jsonOk, rfl⟩ | isLoot | isTag
  · refine .recipe recipe json.reread isRecipe rfl
      (TreeFile.json?_ofText_reread (Recipe.tidy_toJson jsonOk) _) ?_
    refine Json.Every.reread (Recipe.every_toJson Ingredient.sparesOthers_known ?_ jsonOk)
      fun part => Recipe.known_reread
    exact fun reference => Recipe.known_of_wellFormed (wellFormed.recipes recipe isRecipe) tagged
  · obtain ⟨block, isBlock, rfl⟩ := List.mem_map.1 isLoot
    have isBlock := (List.mem_filter.1 isBlock).1
    refine .lootTable block _ isBlock rfl
      (TreeFile.json?_ofText_reread (Loot.tidy_table _ _ _) _) ?_
    rw [← wellFormed.qualifyId_blockId (List.mem_map_of_mem isBlock)]
    exact Json.Every.reread (Loot.every_table _ _ _) fun part => Loot.concerns_reread
  · obtain ⟨tag, -, rfl⟩ := List.mem_map.1 isTag
    obtain ⟨keeps, isValues⟩ := Tag.get?_toJson (Tag.values (Tag.entries catalog) tag)
    exact .tag tag _ _ rfl (TreeFile.json?_ofText (Tag.tidy_toJson _) _) keeps isValues
      (Tag.lists_values wellFormed modId
        (fun family isFamily => Specification.member_mem_blockIds expanded isFamily) tagged tag)

end Catalog

/-- Every data file of a plan is a recipe, a loot table or a tag, and what it names of the mod is
there: ingredients and blocks are declared, and tags have their files. -/
theorem Plan.closed_data {spec : Specification} {settings : Settings} {plan : Plan}
    (planned : ofSpecification spec settings = .ok plan) {file : TreeFile}
    (isFile : file ∈ plan.files) {rest : String} (isData : file.path = "data/" ++ rest) :
    plan.catalog.Closed settings.folders plan.files file := by
  obtain ⟨expanded, filed⟩ := ofSpecification_eq_ok.1 planned
  obtain ⟨assets, data, assetsOk, dataOk, -, same⟩ := filesOf_eq_ok.1 filed
  rw [same, TreeFile.mem_sort, List.mem_append] at isFile
  have included : ∀ other ∈ data, other ∈ plan.files := fun other isOther => by
    rw [same, TreeFile.mem_sort]
    exact List.mem_append_right _ isOther
  rcases isFile with isAsset | isFile
  · obtain ⟨other, path⟩ := Catalog.isAsset_of_mem assetsOk isAsset
    have spelled := congrArg String.toList (path.symm.trans isData)
    simp at spelled
  · exact Catalog.closed_dataFiles expanded dataOk included file isFile

/-- A mod with a recipe that makes slabs of its own item. -/
def Specification.rubySlabs : Specification :=
  { Specification.ofGem "ab" with
    recipes := [.shapeless { ingredients := ["ruby", "ab:ruby"], result := "ab:ruby_slab" }] }

theorem Plan.closed_rubySlabs :
    ∃ plan file, ofSpecification .rubySlabs {} = .ok plan ∧ file ∈ plan.files ∧
      file.path = "data/" ++ "ab/recipe/ruby_slab.json" ∧
      plan.catalog.Closed ({} : Settings).folders plan.files file := by
  obtain ⟨catalog, expanded, files, filed, file, isFile, path⟩ :
      ∃ catalog, Specification.rubySlabs.expand = .ok catalog ∧
        ∃ files, Plan.filesOf catalog {} = .ok files ∧
          ∃ file ∈ files, file.path = "data/" ++ "ab/recipe/ruby_slab.json" := by
    refine ⟨_, rfl, _, Plan.filesOf_eq_ok.2 ⟨_, _, Catalog.assetFiles_eq_ok.2
      ⟨[_, _], .cons ⟨rfl, rfl⟩ (.cons ⟨rfl, ?_⟩ .nil), ?_, rfl⟩, rfl, ?_, rfl⟩, ?_⟩
    · decide
    · decide +kernel
    · refine ((((TreeFile.sort_perm _).trans (List.reverse_perm _)).append
        (TreeFile.sort_perm _)).map TreeFile.path).nodup_iff.2 ?_
      decide +kernel
    · exact ⟨_, TreeFile.mem_sort.2 (List.mem_append_right _
        (TreeFile.mem_sort.2 List.mem_cons_self)), rfl⟩
  have planned : Plan.ofSpecification .rubySlabs {} = .ok ⟨catalog, files⟩ :=
    Plan.ofSpecification_eq_ok.2 ⟨expanded, filed⟩
  exact ⟨⟨catalog, files⟩, file, planned, isFile, path, Plan.closed_data planned isFile path⟩

end Blockwright
