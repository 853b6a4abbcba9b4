import Blockwright.Proofs.Assets.Files
import Blockwright.Proofs.Assets.Naming
import Blockwright.Proofs.Spec.Expansion
import Blockwright.Proofs.Spec.Slug

/-!
# References between asset files

What the models and block states of a mod name is among the files of the same asset: every ending
in the tables of a shape is the ending of a texture or a model of the shape.
-/

namespace Blockwright

/-! ## Items -/

theorem RuleTable.classify_mem {α : Type} {table : RuleTable α} {subject : String} {variant : α}
    (classified : table.classify subject = some variant) : variant ∈ table.map Rule.variant := by
  obtain ⟨rule, found, rfl⟩ := Option.map_eq_some_iff.1 classified
  exact List.mem_map_of_mem (List.mem_of_find?_eq_some found)

theorem heldParent_mem_baseParents (id : String) : heldParent id ∈ Location.baseParents := by
  rw [heldParent]
  cases classified : heldRules.classify id with
  | none => exact List.mem_cons_self
  | some parent =>
    have isVariant : parent ∈ heldRules.map Rule.variant := RuleTable.classify_mem classified
    exact List.mem_cons_of_mem _ (List.mem_append_left _ isVariant)

theorem TreeFile.isTexture_of_path {file : TreeFile} {front : String}
    (path : file.path = front ++ ".png") : file.isTexture = true := by
  simp [isTexture, path]

namespace Json

variable (parent texture : String)

theorem tidy_flatModel :
    (ofMembers [("parent", text parent), ("textures", .single "layer0" (text texture))]).Tidy
      Number.IsExact Document.depthLimit := by
  refine tidy_ofMembers (by decide) ?_
  simp only [List.forall_mem_cons, List.not_mem_nil, false_implies, implies_true, and_true]
  exact ⟨tidy_text _, tidy_single (by decide) (tidy_text _)⟩

theorem textureNames_flatModel :
    (ofMembers [("parent", text parent),
      ("textures", .single "layer0" (text texture))]).textureNames = [texture] :=
  textureNames_ofMembers (by simp) (List.mem_cons_of_mem _ List.mem_cons_self)

theorem parentName?_flatModel :
    (ofMembers [("parent", text parent),
      ("textures", .single "layer0" (text texture))]).parentName? = some parent :=
  parentName?_ofMembers (by simp) List.mem_cons_self

end Json

namespace Entity

theorem resolves_itemFiles (item : Entity) {modId : String} (noColon : ':' ∉ modId.toList)
    (sizes : TextureSizes) :
    ∀ file ∈ item.itemFiles modId sizes, Resolves modId (item.itemFiles modId sizes) file := by
  rw [itemFiles, List.forall_mem_cons, List.forall_mem_singleton]
  constructor
  · exact .of_texture rfl
  · refine .of_model (Json.tidy_flatModel _ _) _ _ ?_ ?_
    · intro location isNamed
      rw [Json.textureNames_flatModel, List.mem_singleton] at isNamed
      subst isNamed
      exact ⟨_, List.mem_cons_self, (Location.textureFile_item noColon item.id).symm,
        TreeFile.isTexture_of_path rfl⟩
    · intro location isParent
      rw [Json.parentName?_flatModel, Option.some.injEq] at isParent
      exact .inl (isParent ▸ heldParent_mem_baseParents item.id)

end Entity

/-! ## Models of blocks -/

namespace ModelTemplate

variable (template : ModelTemplate) (modId id : String)

theorem tidy_toJson :
    (template.toJson modId id).Tidy Json.Number.IsExact Json.Document.depthLimit := by
  refine Json.tidy_ofMembers (by decide) fun member isMember => ?_
  rcases List.mem_append.1 isMember with isParent | isTextures
  · rw [Option.toList_map] at isParent
    obtain ⟨parent, -, rfl⟩ := List.mem_map.1 isParent
    exact Json.tidy_text parent
  · rw [List.mem_singleton.1 isTextures]
    refine Json.tidy_ofMembers (by decide) fun slot isSlot => ?_
    obtain ⟨_, -, rfl⟩ := List.mem_map.1 isSlot
    exact Json.tidy_text _

variable {template modId id}

theorem members_nodup (parent : Option String) (textures : Json) :
    (((parent.map fun parent => ("parent", Json.text parent)).toList
      ++ [("textures", textures)]).map Prod.fst).Nodup := by
  cases parent <;> simp

theorem exists_slot_of_mem_textureNames {location : String}
    (isNamed : location ∈ (template.toJson modId id).textureNames) :
    ∃ slot ∈ template.slots, location = ModelTemplate.location modId id slot.2 := by
  rw [toJson, Json.textureNames_ofMembers (members_nodup _ _) (List.mem_append_right _
    List.mem_cons_self)] at isNamed
  obtain ⟨_, isMember, hasText⟩ := Json.mem_memberTexts_ofMembers isNamed
  obtain ⟨slot, isSlot, rfl⟩ := List.mem_map.1 isMember
  exact ⟨slot, isSlot, (Option.some.inj hasText).symm⟩

theorem parentName?_toJson : (template.toJson modId id).parentName? = template.parent := by
  cases isParent : template.parent with
  | none =>
    simp [toJson, isParent, Json.parentName?, Json.ofMembers, Json.sortMembers, Json.addMember,
      Json.get?, Json.lookup]
  | some parent =>
    rw [toJson, Json.parentName?_ofMembers (members_nodup _ _) (List.mem_append_left _
      (by rw [isParent]; exact List.mem_cons_self))]
    rfl

end ModelTemplate

/-! ## Block states -/

namespace Placement

variable {placement : Placement} {modId id : String}

theorem mem_members {member : String × Json}
    (isMember : member ∈
      [("model", Json.text (ModelTemplate.location modId id placement.ending))]
        ++ (if placement.x = 0 then [] else [("x", Json.nat placement.x)])
        ++ (if placement.y = 0 then [] else [("y", Json.nat placement.y)])
        ++ (if placement.uvlock then [("uvlock", Json.bool true)] else [])) :
    member = ("model", .text (ModelTemplate.location modId id placement.ending)) ∨
      member = ("x", .nat placement.x) ∨ member = ("y", .nat placement.y) ∨
        member = ("uvlock", .bool true) := by
  simp only [List.mem_append, List.mem_singleton] at isMember
  rcases isMember with ((isModel | isX) | isY) | isFlag
  · exact .inl isModel
  · split at isX
    · simp at isX
    · exact .inr (.inl (List.mem_singleton.1 isX))
  · split at isY
    · simp at isY
    · exact .inr (.inr (.inl (List.mem_singleton.1 isY)))
  · split at isFlag
    · exact .inr (.inr (.inr (List.mem_singleton.1 isFlag)))
    · simp at isFlag

theorem tidy_toJson {room : Nat} (deep : 1 < room) (turnX : placement.x ≤ 360)
    (turnY : placement.y ≤ 360) :
    (placement.toJson modId id).Tidy Json.Number.IsExact room := by
  have limit : 360 ≤ Json.Token.significandLimit := by decide
  refine Json.tidy_ofMembers deep fun member isMember => ?_
  rcases mem_members isMember with rfl | rfl | rfl | rfl
  · exact Json.tidy_text _
  · exact Json.tidy_nat (Nat.le_trans turnX limit)
  · exact Json.tidy_nat (Nat.le_trans turnY limit)
  · exact Json.tidy_bool true

theorem modelNames_toJson {name : String}
    (isNamed : name ∈ (placement.toJson modId id).modelNames) :
    name = ModelTemplate.location modId id placement.ending := by
  obtain ⟨member, isMember, found⟩ := Json.mem_modelNames_ofMembers isNamed
  rcases mem_members isMember with rfl | rfl | rfl | rfl
  all_goals simp [Json.modelNames, Json.nat] at found
  exact found.symm

end Placement

namespace BlockState

variable {modId id : String}

theorem tidy_toJson {state : BlockState}
    (turns : ∀ placement ∈ state.placements, placement.x ≤ 360 ∧ placement.y ≤ 360) :
    (state.toJson modId id).Tidy Json.Number.IsExact Json.Document.depthLimit := by
  cases state with
  | variants choices =>
    refine Json.tidy_single (by decide) (Json.tidy_ofMembers (by decide) fun member isMember => ?_)
    obtain ⟨choice, isChoice, rfl⟩ := List.mem_map.1 isMember
    obtain ⟨turnX, turnY⟩ := turns choice.2 (List.mem_map_of_mem isChoice)
    exact Placement.tidy_toJson (by decide) turnX turnY
  | multipart always sides =>
    refine Json.tidy_single (by decide) (Json.tidy_array (by decide) fun element isElement => ?_)
    rcases List.mem_cons.1 isElement with rfl | isElement
    · obtain ⟨turnX, turnY⟩ := turns always List.mem_cons_self
      exact Json.tidy_single (by decide) (Placement.tidy_toJson (by decide) turnX turnY)
    · obtain ⟨side, isSide, rfl⟩ := List.mem_map.1 isElement
      obtain ⟨turnX, turnY⟩ := turns side.2 (List.mem_cons_of_mem _ (List.mem_map_of_mem isSide))
      refine Json.tidy_ofMembers (by decide) ?_
      simp only [List.forall_mem_cons, List.not_mem_nil, false_implies, implies_true, and_true]
      exact ⟨Json.tidy_single (by decide) (Json.tidy_text _),
        Placement.tidy_toJson (by decide) turnX turnY⟩

/-- Names of the sides that a block state asks for. -/
def sideNames : BlockState → List String
  | variants _ => []
  | multipart _ sides => sides.map Prod.fst

theorem exists_placement_of_mem_modelNames {state : BlockState}
    (noModel : "model" ∉ state.sideNames) {name : String}
    (isNamed : name ∈ (state.toJson modId id).modelNames) :
    ∃ placement ∈ state.placements,
      name = ModelTemplate.location modId id placement.ending := by
  cases state with
  | variants choices =>
    rw [toJson, Json.mem_modelNames_single (by decide)] at isNamed
    obtain ⟨_, isMember, found⟩ := Json.mem_modelNames_ofMembers isNamed
    obtain ⟨choice, isChoice, rfl⟩ := List.mem_map.1 isMember
    rcases found with named | found
    · simp [Placement.toJson, Json.ofMembers] at named
    · exact ⟨choice.2, List.mem_map_of_mem isChoice, Placement.modelNames_toJson found⟩
  | multipart always sides =>
    rw [toJson, Json.mem_modelNames_single (by decide)] at isNamed
    obtain ⟨element, isElement, found⟩ := Json.mem_elementModelNames.1 isNamed
    rcases List.mem_cons.1 isElement with rfl | isElement
    · rw [Json.mem_modelNames_single (by decide)] at found
      exact ⟨always, List.mem_cons_self, Placement.modelNames_toJson found⟩
    · obtain ⟨side, isSide, rfl⟩ := List.mem_map.1 isElement
      have otherName : side.1 ≠ "model" := by
        rintro same
        exact noModel (same ▸ List.mem_map_of_mem isSide)
      obtain ⟨_, isMember, found⟩ := Json.mem_modelNames_ofMembers found
      simp only [List.mem_cons, List.not_mem_nil, or_false] at isMember
      rcases isMember with rfl | rfl
      · rcases found with named | found
        · simp at named
        · rw [Json.mem_modelNames_single otherName] at found
          simp [Json.modelNames] at found
      · rcases found with named | found
        · simp at named
        · exact ⟨side.2, List.mem_cons_of_mem _ (List.mem_map_of_mem isSide),
            Placement.modelNames_toJson found⟩

end BlockState

/-! ## The tables of shapes -/

namespace Shape

theorem slot_mem_textures (shape : Shape) :
    ∀ template ∈ shape.models, ∀ slot ∈ template.slots, slot.2 ∈ shape.textures := by
  cases shape <;> decide +kernel

/-- The block state of a shape places models of the shape, turned by at most a full turn. -/
theorem placement_mem_models (shape : Shape) :
    ∀ placement ∈ shape.blockState.placements,
      placement.ending ∈ shape.models.map ModelTemplate.ending ∧
        placement.x ≤ 360 ∧ placement.y ≤ 360 := by
  cases shape <;> decide +kernel

theorem sideNames_ne_model (shape : Shape) : "model" ∉ shape.blockState.sideNames := by
  cases shape <;> decide +kernel

theorem placed_mem_models (shape : Shape) {ending : String}
    (placed : shape.itemForm = .placed ending) :
    ending ∈ shape.models.map ModelTemplate.ending := by
  cases shape <;> simp [itemForm] at placed <;> subst placed <;> decide

theorem parent_mem_baseParents (shape : Shape) {template : ModelTemplate}
    (isModel : template ∈ shape.models) {parent : String}
    (isParent : template.parent = some parent) : parent ∈ Location.baseParents := by
  refine List.mem_cons_of_mem _ (List.mem_append_right _ ?_)
  exact List.mem_flatMap.2 ⟨shape, mem_all shape,
    List.mem_filterMap.2 ⟨template, isModel, isParent⟩⟩

end Shape

/-! ## Blocks -/

namespace Block

variable (block : Block) {modId : String} (sizes : TextureSizes)

theorem hasTexture_face (noColon : ':' ∉ modId.toList) {ending : String}
    (isEnding : ending ∈ block.shape.textures) :
    HasTexture (block.assetFiles modId sizes) (ModelTemplate.location modId block.id ending) := by
  obtain ⟨file, isFace, path⟩ : ∃ file ∈ block.faceFiles modId sizes,
      file.path = Path.texture modId .block (block.id ++ ending) :=
    ⟨_, List.mem_map_of_mem isEnding, rfl⟩
  refine ⟨file, ?_, path.trans (Location.textureFile_location noColon block.id ending).symm,
    TreeFile.isTexture_of_path path⟩
  exact List.mem_append_left _ (List.mem_append_left _ (List.mem_append_left _ isFace))

theorem mem_assetFiles_of_model {file : TreeFile} (isModel : file ∈ block.modelFiles modId) :
    file ∈ block.assetFiles modId sizes :=
  List.mem_append_left _ (List.mem_append_left _ (List.mem_append_right _ isModel))

theorem hasBlockModel (noColon : ':' ∉ modId.toList) {ending : String}
    (isEnding : ending ∈ block.shape.models.map ModelTemplate.ending) :
    HasBlockModel modId (block.assetFiles modId sizes)
      (ModelTemplate.location modId block.id ending) := by
  obtain ⟨template, isModel, rfl⟩ := List.mem_map.1 isEnding
  obtain ⟨file, isFile, path⟩ : ∃ file ∈ block.modelFiles modId,
      file.path = Path.model modId .block (block.id ++ template.ending) :=
    ⟨_, List.mem_append_left _ (List.mem_map_of_mem (List.mem_map_of_mem isModel)), rfl⟩
  have target := Location.modelFile_location noColon block.id template.ending
  exact ⟨_, target, file, block.mem_assetFiles_of_model sizes isFile, path.trans target.symm⟩

theorem resolves_template (noColon : ':' ∉ modId.toList) {template : ModelTemplate}
    (isModel : template ∈ block.shape.models) :
    Resolves modId (block.assetFiles modId sizes)
      (.ofText (Path.model modId .block (block.id ++ template.ending))
        (template.toJson modId block.id).pretty) := by
  refine .of_model (template.tidy_toJson modId block.id) _ _ ?_ ?_
  · intro location isNamed
    obtain ⟨slot, isSlot, rfl⟩ := ModelTemplate.exists_slot_of_mem_textureNames isNamed
    exact block.hasTexture_face sizes noColon
      (block.shape.slot_mem_textures template isModel slot isSlot)
  · intro location isParent
    rw [ModelTemplate.parentName?_toJson] at isParent
    exact .inl (block.shape.parent_mem_baseParents isModel isParent)

theorem resolves_blockState (noColon : ':' ∉ modId.toList) :
    Resolves modId (block.assetFiles modId sizes)
      (.ofText (Path.blockState modId block.id)
        (block.shape.blockState.toJson modId block.id).pretty) := by
  have placed := block.shape.placement_mem_models
  refine .of_blockState (BlockState.tidy_toJson fun placement isPlaced =>
    (placed placement isPlaced).2) _ fun location isNamed => ?_
  obtain ⟨placement, isPlaced, rfl⟩ :=
    BlockState.exists_placement_of_mem_modelNames block.shape.sideNames_ne_model isNamed
  exact block.hasBlockModel sizes noColon (placed placement isPlaced).1

theorem hasTexture_sprite (noColon : ':' ∉ modId.toList) (flat : block.shape.itemForm = .flat) :
    HasTexture (block.assetFiles modId sizes) (modId ++ ":item/" ++ block.id) := by
  obtain ⟨file, isSprite, path⟩ : ∃ file ∈ block.spriteFiles modId sizes,
      file.path = Path.texture modId .item block.id := by
    rw [spriteFiles, if_pos flat]
    exact ⟨_, List.mem_cons_self, rfl⟩
  refine ⟨file, ?_, path.trans (Location.textureFile_item noColon block.id).symm,
    TreeFile.isTexture_of_path path⟩
  exact List.mem_append_left _ (List.mem_append_right _ isSprite)

theorem resolves_itemModel (noColon : ':' ∉ modId.toList) :
    Resolves modId (block.assetFiles modId sizes)
      (.ofText (Path.model modId .item block.id)
        (block.shape.itemModel modId block.id).pretty) := by
  cases form : block.shape.itemForm with
  | placed ending =>
    have model : block.shape.itemModel modId block.id =
        .single "parent" (.text (ModelTemplate.location modId block.id ending)) := by
      rw [Shape.itemModel, form]
    rw [model]
    refine .of_model (Json.tidy_single (by decide) (Json.tidy_text _)) _ _ ?_ ?_
    · intro location isNamed
      simp [Json.textureNames, Json.single, Json.get?, Json.lookup] at isNamed
    · intro location isParent
      obtain rfl : ModelTemplate.location modId block.id ending = location :=
        Option.some.inj isParent
      obtain ⟨_, -, there⟩ :=
        block.hasBlockModel sizes noColon (block.shape.placed_mem_models form)
      exact .inr there
  | flat =>
    have model : block.shape.itemModel modId block.id = Json.ofMembers [
        ("parent", .text "minecraft:item/generated"),
        ("textures", .single "layer0" (.text (modId ++ ":item/" ++ block.id)))] := by
      rw [Shape.itemModel, form]
    rw [model]
    refine .of_model (Json.tidy_flatModel _ _) _ _ ?_ ?_
    · intro location isNamed
      rw [Json.textureNames_flatModel, List.mem_singleton] at isNamed
      subst isNamed
      exact block.hasTexture_sprite sizes noColon form
    · intro location isParent
      rw [Json.parentName?_flatModel, Option.some.injEq] at isParent
      subst isParent
      exact .inl List.mem_cons_self

theorem resolves_files (noColon : ':' ∉ modId.toList) :
    ∀ file ∈ block.assetFiles modId sizes, Resolves modId (block.assetFiles modId sizes) file := by
  intro file isFile
  simp only [assetFiles, List.mem_append] at isFile
  rcases isFile with ((isFace | isModel) | isSprite) | isSign
  · obtain ⟨_, -, rfl⟩ := List.mem_map.1 isFace
    exact .of_texture rfl
  · rcases List.mem_append.1 isModel with isModel | isOther
    · obtain ⟨_, isNamed, rfl⟩ := List.mem_map.1 isModel
      obtain ⟨template, isTemplate, rfl⟩ := List.mem_map.1 isNamed
      exact block.resolves_template sizes noColon isTemplate
    · simp only [List.mem_cons, List.not_mem_nil, or_false] at isOther
      rcases isOther with rfl | rfl
      · exact block.resolves_blockState sizes noColon
      · exact block.resolves_itemModel sizes noColon
  · rw [spriteFiles] at isSprite
    split at isSprite
    · rw [List.mem_singleton.1 isSprite]
      exact .of_texture rfl
    · simp at isSprite
  · obtain ⟨_, -, rfl⟩ := List.mem_map.1 isSign
    exact .of_texture rfl

end Block

/-! ## Mods -/

namespace Catalog

variable {catalog : Catalog} {sizes : TextureSizes}

theorem resolves_keyFiles (noColon : ':' ∉ catalog.modId.toList) {key : AssetKey}
    {files : List TreeFile} (filesOk : catalog.keyFiles sizes key = .ok files) :
    ∀ file ∈ files, Resolves catalog.modId files file := by
  rw [keyFiles] at filesOk
  split at filesOk
  · split at filesOk
    · cases filesOk
      exact Entity.resolves_itemFiles _ noColon sizes
    · cases filesOk
  · split at filesOk
    · cases filesOk
      exact Block.resolves_files _ sizes noColon
    · cases filesOk

/-- Whatever the asset files of a specification name is among them, whichever keys they are made
for: textures of models, models of block states, and parents of models unless the mod has the
namespace of the base game. -/
theorem resolves_assetFiles {spec : Specification} (expanded : spec.expand = .ok catalog)
    {keys : List AssetKey} {files : List TreeFile}
    (mapped : catalog.assetFiles sizes keys = .ok files) :
    ∀ file ∈ files, Resolves catalog.modId files file := by
  obtain ⟨items, declared, order, rfl⟩ := Specification.expand_eq_ok.1 expanded
  have noColon : ':' ∉ spec.modId.toList :=
    Slug.not_mem_of_isValid (Slug.isValid_of_isModId order.modId) (by decide)
  intro file isFile
  rcases (mem_assetFiles mapped).1 isFile with rfl | ⟨key, isKey, part, partOk, isPart⟩
  · exact .of_language rfl
  · have included : ∀ other ∈ part, other ∈ files := fun other isOther =>
      (mem_assetFiles mapped).2 (.inr ⟨key, isKey, part, partOk, isOther⟩)
    exact (resolves_keyFiles noColon partOk file isPart).mono included

end Catalog

/-- A mod of an item and a slab. -/
def Specification.ofGem (modId : String) : Specification :=
  { modId
    items := [{ id := "ruby" }]
    blocks := [{ entity := { id := "ruby_slab" } }] }

/-- What the files of an item and a slab name is among them. -/
theorem Catalog.resolves_gem :
    ∃ catalog files, (Specification.ofGem "ab").expand = .ok catalog ∧
      catalog.assetFiles ⟨16, 16⟩ catalog.keys = .ok files ∧
      ∀ file ∈ files, Resolves catalog.modId files file := by
  obtain ⟨catalog, expanded, files, mapped⟩ :
      ∃ catalog, (Specification.ofGem "ab").expand = .ok catalog ∧
        ∃ files, catalog.assetFiles ⟨16, 16⟩ catalog.keys = .ok files := by
    refine ⟨_, rfl, _, assetFiles_eq_ok.2
      ⟨[_, _], .cons ⟨rfl, rfl⟩ (.cons ⟨rfl, ?_⟩ .nil), ?_, rfl⟩⟩
    · decide
    · decide
  exact ⟨catalog, files, expanded, mapped, resolves_assetFiles expanded mapped⟩

/-- A mod with the namespace of the base game has an item whose parent in this namespace is not
there. -/
theorem Catalog.missing_parent :
    ∃ catalog files, (Specification.ofGem "minecraft").expand = .ok catalog ∧
      catalog.assetFiles ⟨16, 16⟩ catalog.keys = .ok files ∧
      ∃ file ∈ files, ∃ model location, file.path = Path.model catalog.modId .item "ruby" ∧
        file.json? = some model ∧ model.parentName? = some location ∧
        Location.space location = catalog.modId ∧ ¬HasModel files location := by
  have parent : heldParent "ruby" = "minecraft:item/generated" := by decide
  have inside : Location.space "minecraft:item/generated" = "minecraft" := by decide
  refine ⟨_, _, rfl, assetFiles_eq_ok.2
    ⟨[_, _], .cons ⟨rfl, rfl⟩ (.cons ⟨rfl, ?_⟩ .nil), ?_, rfl⟩, ?_⟩
  · decide
  · decide
  · refine ⟨_, TreeFile.mem_sort.2 (List.mem_reverse.2 (List.mem_append_left _
      (List.mem_append_left _ (List.mem_cons_of_mem _ List.mem_cons_self)))), _, _, rfl,
      TreeFile.json?_ofText (Json.tidy_flatModel _ _) _, Json.parentName?_flatModel _ _, ?_, ?_⟩
    · exact parent ▸ inside
    · rintro ⟨file, isFile, path⟩
      have isPath := List.mem_map_of_mem (f := TreeFile.path)
        (List.mem_reverse.1 (TreeFile.mem_sort.1 isFile))
      rw [path] at isPath
      revert isPath
      decide

end Blockwright
