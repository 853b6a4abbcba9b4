import Blockwright.Proofs.Appearance.Profile
import Blockwright.Proofs.Spec.References

/-!
# Well-formed catalogs

What everything downstream of the expansion relies on: ids are slugs and different, texture sources
name slugs, profiles have their sizes, and recipes have a grid and lead to what is declared.
-/

namespace Blockwright

/-! ## Conditions -/

/-- Whether the block that a texture source is themed after has a slug. -/
def TextureSource.NamesSlug (source : TextureSource) : Prop :=
  ∀ block, source = .template block → Slug.IsSlug block

structure Entity.WellFormed (entity : Entity) : Prop where
  id : Slug.IsSlug entity.id
  profile : entity.profile.Bounded
  source : entity.source.NamesSlug

structure Block.WellFormed (block : Block) : Prop where
  entity : block.entity.WellFormed
  itemSource : block.itemSource.NamesSlug
  signSource : ∀ source, block.signSource = some source → source.NamesSlug
  sign : block.signSource.isSome = true ↔ block.shape = .sign ∨ block.shape = .hangingSign

namespace Recipe

/-- Whether what a recipe says about its mod is so. -/
structure WellFormed (catalog : Catalog) (recipe : Recipe) : Prop where
  id : Slug.IsSlug recipe.id
  grid : ∀ id category pattern key result count,
    recipe = .shaped id category pattern key result count → Grid pattern key
  /-- A reference to the mod is a declared id. -/
  items : ∀ reference ∈ recipe.references, (∀ tag, reference ≠ "#" ++ tag) →
    ∀ name, Names catalog.modId reference name →
      name ∈ catalog.items.map Entity.id ∨ name ∈ catalog.blocks.map Block.id
  /-- A tag of the mod is that of the logs of a wood family. -/
  tags : ∀ reference ∈ recipe.references, ∀ tag, reference = "#" ++ tag →
    ∀ name, Names catalog.modId tag name →
      ∃ family ∈ catalog.families, name = family.id ++ "_logs"

end Recipe

structure Catalog.WellFormed (catalog : Catalog) : Prop where
  items : ∀ item ∈ catalog.items, item.WellFormed
  blocks : ∀ block ∈ catalog.blocks, block.WellFormed
  recipes : ∀ recipe ∈ catalog.recipes, recipe.WellFormed catalog
  differentIds : (catalog.items.map Entity.id ++ catalog.blocks.map Block.id).Nodup
  differentRecipes : (catalog.recipes.map Recipe.id).Nodup

/-- Whether an entity has the profile that its names tell, with what is stated in place of it. -/
structure EntitySpec.Tells (stated : EntitySpec) (entity : Entity) : Prop where
  unstated : stated.profile = none → entity.profile =
    .derive entity.displayName stated.id stated.material entity.material
  stated : ∀ override, stated.profile = some override → Profile.Overrides override
    (.derive entity.displayName stated.id stated.material entity.material) entity.profile

/-! ## Entities -/

namespace EntitySpec

variable {stated : EntitySpec} {entity : Entity}

theorem checkId_eq_ok {id : String} : checkId id = .ok () ↔ Slug.IsSlug id := by
  rw [← Slug.isValid_iff, checkId, Slug.isValid]
  cases Slug.fault? id <;> simp

theorem namesSlug_of_checkedSource {source : TextureSource}
    (checked : stated.checkedSource = .ok source) : source.NamesSlug := by
  rintro block rfl
  rw [checkedSource] at checked
  split at checked
  · cases checked
  · split at checked
    · obtain ⟨_, valid, same⟩ := Outcome.map_eq_ok.1 checked
      cases same
      exact checkId_eq_ok.1 valid
    · cases checked

/-- An expanded entity is as its fields say, with a checked id and a checked source. -/
theorem expand_eq_ok (expanded : stated.expand = .ok entity) :
    Slug.IsSlug stated.id ∧ stated.checkedSource = .ok entity.source ∧ entity.id = stated.id ∧
      entity.profile = (stated.profile.map
        (Profile.derive entity.displayName stated.id stated.material entity.material).override).getD
          (.derive entity.displayName stated.id stated.material entity.material) := by
  rw [expand] at expanded
  obtain ⟨valid, expanded⟩ := Outcome.check_bind_eq_ok.1 expanded
  obtain ⟨color, -, expanded⟩ := Outcome.bind_eq_ok.1 expanded
  obtain ⟨source, sourceOk, expanded⟩ := Outcome.bind_eq_ok.1 expanded
  cases expanded
  refine ⟨checkId_eq_ok.1 valid, sourceOk, rfl, ?_⟩
  cases stated.profile <;> rfl

theorem tells_of_expand (expanded : stated.expand = .ok entity) : stated.Tells entity := by
  obtain ⟨-, -, -, profile⟩ := expand_eq_ok expanded
  constructor
  · intro isNone
    rw [profile, isNone]
    rfl
  · intro override isSome
    rw [profile, isSome]
    exact Profile.overrides_override _ override

theorem wellFormed_of_expand (expanded : stated.expand = .ok entity) : entity.WellFormed := by
  obtain ⟨valid, sourceOk, id, profile⟩ := expand_eq_ok expanded
  refine ⟨id ▸ valid, ?_, namesSlug_of_checkedSource sourceOk⟩
  rw [profile]
  cases stated.profile with
  | none => exact Profile.derive_bounded _ _ _ _
  | some override => exact (Profile.derive_bounded _ _ _ _).override override

end EntitySpec

/-! ## Blocks -/

theorem TextureSource.namesSlug_procedural : NamesSlug .procedural := nofun

theorem Shape.isSign_iff {shape : Shape} :
    shape.isSign = true ↔ shape = .sign ∨ shape = .hangingSign := by
  cases shape <;> decide

namespace BlockSpec

variable {stated : BlockSpec} {block : Block}

theorem expand_eq_ok (expanded : stated.expand = .ok block) :
    stated.entity.expand = .ok block.entity ∧ block.itemSource = .procedural ∧
      block.signSource = if block.shape.isSign then some .procedural else none := by
  rw [expand] at expanded
  obtain ⟨entity, entityOk, expanded⟩ := Outcome.bind_eq_ok.1 expanded
  cases expanded
  exact ⟨entityOk, rfl, rfl⟩

theorem wellFormed_of_expand (expanded : stated.expand = .ok block) : block.WellFormed := by
  obtain ⟨entityOk, itemSource, signSource⟩ := expand_eq_ok expanded
  refine ⟨EntitySpec.wellFormed_of_expand entityOk, ?_, ?_, ?_⟩
  · rw [itemSource]
    exact TextureSource.namesSlug_procedural
  · intro source isSource
    rw [signSource] at isSource
    split at isSource
    · cases isSource
      exact TextureSource.namesSlug_procedural
    · cases isSource
  · rw [signSource, ← Shape.isSign_iff]
    split <;> simp [*]

end BlockSpec

namespace WoodSpec

theorem wellFormed_member {wood : WoodSpec} {role : WoodRole}
    (valid : Slug.IsSlug (role.blockId wood.id)) : (wood.member role).WellFormed where
  entity := {
    id := valid
    profile := Profile.derive_bounded _ _ _ _
    source := by
      intro block isTemplate
      cases isTemplate
      rw [← Slug.isValid_iff]
      cases role <;> decide }
  itemSource := by
    cases role
    all_goals exact nofun
  signSource := by
    cases role
    all_goals
      rintro source isSource
      cases isSource
      try exact nofun
  sign := by cases role <;> simp [member, signSource, WoodRole.shape]

theorem check_eq_ok {wood : WoodSpec} :
    wood.check = .ok () ↔
      Slug.IsSlug wood.id ∧ ∀ role : WoodRole, Slug.IsSlug (role.blockId wood.id) := by
  rw [check, Outcome.check_bind_eq_ok, Outcome.forM_eq_ok, EntitySpec.checkId_eq_ok]
  refine and_congr_right fun _ => ⟨fun each role => ?_, fun each member isMember => ?_⟩
  · have isMember := List.mem_map_of_mem (f := wood.member) (WoodRole.mem_all role)
    exact EntitySpec.checkId_eq_ok.1 (each _ isMember)
  · obtain ⟨role, -, rfl⟩ := List.mem_map.1 isMember
    exact EntitySpec.checkId_eq_ok.2 (each role)

end WoodSpec

/-! ## Recipes -/

theorem Recipe.wellFormed_of_check {catalog : Catalog} {recipe : Recipe}
    (modId : Slug.IsSlug catalog.modId)
    (accepted : recipe.check catalog.modId
      (catalog.items.map Entity.id ++ catalog.blocks.map Block.id)
      (catalog.families.map fun family => WoodSpec.logsTag family.id) = .ok ()) :
    recipe.WellFormed catalog := by
  obtain ⟨valid, noFault, resolves⟩ := check_eq_ok.1 accepted
  have oneSpace : ':' ∉ catalog.modId.toList :=
    Slug.not_mem_of_isValid (Slug.isValid_iff.2 modId) (by decide)
  refine { id := valid, grid := ?_, items := ?_, tags := ?_ }
  · rintro id category pattern key result count rfl
    exact grid_of_fault noFault
  · intro reference isReference unmarked name names
    have known := resolves reference isReference
    rw [Recipe.resolves, target?_item oneSpace unmarked names] at known
    simpa using known
  · rintro reference isReference tag rfl name names
    have known := resolves _ isReference
    rw [Recipe.resolves, target?_tag oneSpace names] at known
    obtain ⟨family, isFamily, same⟩ := List.mem_map.1 (List.contains_iff_mem.1 known)
    exact ⟨family, isFamily, same.symm⟩

/-! ## Catalogs -/

namespace Specification

variable {spec : Specification} {catalog : Catalog}

theorem isSlug_modId (expanded : spec.expand = .ok catalog) : Slug.IsSlug catalog.modId := by
  obtain ⟨items, declared, order, rfl⟩ := expand_eq_ok.1 expanded
  exact Slug.isValid_iff.1 (Slug.isValid_of_isModId order.modId)

theorem wellFormed_of_expand (expanded : spec.expand = .ok catalog) : catalog.WellFormed := by
  have modId := isSlug_modId expanded
  obtain ⟨items, declared, order, rfl⟩ := expand_eq_ok.1 expanded
  refine ⟨?_, ?_, ?_, order.different, order.differentRecipes⟩
  · intro item isItem
    obtain ⟨stated, -, itemOk⟩ := Outcome.exists_of_mem_mapM order.expandsItems isItem
    exact EntitySpec.wellFormed_of_expand itemOk
  · intro block isBlock
    rcases List.mem_append.1 isBlock with isDeclared | isMember
    · obtain ⟨stated, -, blockOk⟩ := Outcome.exists_of_mem_mapM order.expandsBlocks isDeclared
      exact BlockSpec.wellFormed_of_expand blockOk
    · obtain ⟨wood, isWood, isMember⟩ := List.mem_flatMap.1 isMember
      obtain ⟨role, -, rfl⟩ := List.mem_map.1 isMember
      exact WoodSpec.wellFormed_member ((WoodSpec.check_eq_ok.1 (order.woods wood isWood)).2 role)
  · intro recipe isRecipe
    have accepted := order.recipes recipe isRecipe
    refine Recipe.wellFormed_of_check modId ?_
    simpa [knownIds, tagNames, catalogOf, WoodSpec.family, Function.comp_def] using accepted

/-- What is expanded is well formed. Each declared item and block has the profile that its names
tell, with what is stated in place of it. -/
theorem expand_wellFormed (expanded : spec.expand = .ok catalog) :
    catalog.WellFormed ∧ List.Forall₂ EntitySpec.Tells spec.items catalog.items ∧
      ∃ declared, catalog.blocks = declared ++ spec.woods.flatMap WoodSpec.members ∧
        List.Forall₂ (fun stated block => stated.entity.Tells block.entity) spec.blocks
          declared := by
  refine ⟨wellFormed_of_expand expanded, ?_⟩
  obtain ⟨items, declared, order, rfl⟩ := expand_eq_ok.1 expanded
  refine ⟨?_, declared, rfl, ?_⟩
  · exact (Outcome.mapM_eq_ok.1 order.expandsItems).imp fun _ _ => EntitySpec.tells_of_expand
  · exact (Outcome.mapM_eq_ok.1 order.expandsBlocks).imp fun _ _ blockOk =>
      EntitySpec.tells_of_expand (BlockSpec.expand_eq_ok blockOk).1

/-- A mod with a stated profile, a sign, a wood family and a recipe for the sign. -/
def gemSigns : Specification :=
  { modId := "ab"
    items := [
      { id := "gem"
        profile := some
          { hint := none
            traits := some [.soft, .soft, .light]
            styles := none
            motifs := some [.flakes, .rings, .rings] } }]
    blocks := [{ entity := { id := "gem_sign", template := some "oak_sign" } }]
    woods := [{ id := "ash" }]
    recipes := [
      .shaped
        { pattern := ["##", " X"]
          key := [('#', "gem"), ('X', "#ab:ash_logs")]
          result := "ab:gem_sign" }] }

theorem gemSigns_wellFormed :
    ∃ catalog, gemSigns.expand = .ok catalog ∧ catalog.WellFormed ∧
      List.Forall₂ EntitySpec.Tells gemSigns.items catalog.items ∧
      ∃ declared, catalog.blocks = declared ++ gemSigns.woods.flatMap WoodSpec.members ∧
        List.Forall₂ (fun stated block => stated.entity.Tells block.entity) gemSigns.blocks
          declared :=
  ⟨_, rfl, expand_wellFormed rfl⟩

end Specification

end Blockwright
