import Blockwright.Proofs.Shape.Endings
import Blockwright.Proofs.Spec.Slug
import Blockwright.Proofs.Text.Pieces

/-!
# Ids of wood family members

The id of a member ends with the noun of its role. No noun ends with another one, but that of
hanging signs, and so there are three ways only in which members of two woods share an id. The
recipes of a wood are called like its members, or like planks of which something is made.
-/

namespace Blockwright

/-! ## Members with one id -/

namespace WoodRole

/-- What stands in front of the noun in the id of a member. -/
def front (role : WoodRole) (wood : String) : String :=
  (if role.isStripped then "stripped_" else "") ++ wood

theorem toList_blockId (role : WoodRole) (wood : String) :
    (role.blockId wood).toList = (role.front wood).toList ++ '_' :: role.noun.toList := by
  rw [blockId, ← front, String.toList_append, String.toList_append, List.append_assoc]
  rfl

/-- Members of two woods that share an id, the first of them with the longer noun. -/
inductive Shares (wood : String) : WoodRole → WoodRole → String → Prop where
  | log : Shares wood .strippedLog .log ("stripped_" ++ wood)
  | wood : Shares wood .strippedWood .wood ("stripped_" ++ wood)
  | sign : Shares wood .hangingSign .sign (wood ++ "_hanging")

variable {role other : WoodRole} {wood otherWood : String}

theorem Shares.blockId_eq (shares : Shares wood role other otherWood) :
    role.blockId wood = other.blockId otherWood := by
  cases shares with
  | log => simp [blockId, isStripped, noun]
  | wood => simp [blockId, isStripped, noun]
  | sign => exact (blockId_sign_hanging wood).symm

theorem noun_ending {middle : List Char}
    (ends : role.noun.toList = middle ++ '_' :: other.noun.toList) :
    role = .hangingSign ∧ other = .sign ∧ middle = "hanging".toList := by
  have table : ∀ role ∈ all, ∀ other ∈ all,
      ('_' :: other.noun.toList).isSuffixOf role.noun.toList = true →
        role = .hangingSign ∧ other = .sign := by
    decide
  obtain ⟨rfl, rfl⟩ := table role role.mem_all other other.mem_all
    (List.isSuffixOf_iff_suffix.2 ⟨middle, ends.symm⟩)
  refine ⟨rfl, rfl, List.append_cancel_right (ends.symm.trans ?_)⟩
  rfl

theorem eq_of_noun_eq (marks : role.isStripped = other.isStripped)
    (nouns : role.noun = other.noun) : role = other := by
  have table : ∀ role ∈ all, ∀ other ∈ all, role.isStripped = other.isStripped →
      role.noun = other.noun → role = other := by
    decide
  exact table role role.mem_all other other.mem_all marks nouns

theorem shares_of_stripped (stripped : role.isStripped = true) (plain : other.isStripped = false)
    (nouns : role.noun = other.noun) (wood : String) :
    Shares wood role other ("stripped_" ++ wood) := by
  have table : ∀ role ∈ all, ∀ other ∈ all, role.isStripped = true → other.isStripped = false →
      role.noun = other.noun →
        (role = .strippedLog ∧ other = .log) ∨ (role = .strippedWood ∧ other = .wood) := by
    decide
  rcases table role role.mem_all other other.mem_all stripped plain nouns with
    ⟨rfl, rfl⟩ | ⟨rfl, rfl⟩
  · exact .log
  · exact .wood

theorem shares_of_front_eq (fronts : role.front wood = other.front otherWood)
    (nouns : role.noun = other.noun) :
    (role = other ∧ wood = otherWood) ∨ Shares wood role other otherWood ∨
      Shares otherWood other role wood := by
  rw [front, front] at fronts
  cases mark : role.isStripped <;> cases otherMark : other.isStripped
  case false.true =>
    obtain rfl : wood = "stripped_" ++ otherWood := by simpa [mark, otherMark] using fronts
    exact .inr (.inr (shares_of_stripped otherMark mark nouns.symm otherWood))
  case true.false =>
    obtain rfl : "stripped_" ++ wood = otherWood := by simpa [mark, otherMark] using fronts
    exact .inr (.inl (shares_of_stripped mark otherMark nouns wood))
  all_goals
    refine .inl ⟨eq_of_noun_eq (mark.trans otherMark.symm) nouns, ?_⟩
    simpa [mark, otherMark] using fronts

theorem shares_of_noun_ending {middle : List Char}
    (ends : role.noun.toList = middle ++ '_' :: other.noun.toList)
    (fronts : (other.front otherWood).toList = (role.front wood).toList ++ '_' :: middle) :
    Shares wood role other otherWood := by
  obtain ⟨rfl, rfl, rfl⟩ := noun_ending ends
  obtain rfl : otherWood = wood ++ "_hanging" := by
    rw [← String.toList_inj]
    simpa [front, isStripped] using fronts
  exact .sign

theorem blockId_eq_iff :
    role.blockId wood = other.blockId otherWood ↔
      (role = other ∧ wood = otherWood) ∨ Shares wood role other otherWood ∨
        Shares otherWood other role wood := by
  constructor
  · intro same
    have spelled := congrArg String.toList same
    rw [toList_blockId, toList_blockId] at spelled
    -- If the nouns begin at different underscores, one of them ends with the other.
    rcases Text.append_separator_cases spelled with ⟨fronts, nouns⟩ | ⟨middle, fronts, nouns⟩ |
      ⟨middle, fronts, nouns⟩
    · exact shares_of_front_eq (String.toList_inj.1 fronts) (String.toList_inj.1 nouns)
    · exact .inr (.inl (shares_of_noun_ending nouns fronts))
    · exact .inr (.inr (shares_of_noun_ending nouns fronts))
  · rintro (⟨rfl, rfl⟩ | shares | shares)
    · rfl
    · exact shares.blockId_eq
    · exact shares.blockId_eq.symm

theorem eq_of_blockId_planks (same : role.blockId wood = planks.blockId otherWood) :
    role = .planks ∧ wood = otherWood := by
  rcases blockId_eq_iff.1 same with parts | shares | shares
  · exact parts
  · cases shares
  · cases shares

end WoodRole

/-! ## Woods with one id among their members or recipes -/

namespace WoodSpec

/-- What the recipes of a wood make for the base game from planks. -/
def products : List String :=
  ["stick", "crafting_table", "chest", "barrel", "bowl", "shield", "wooden_pickaxe", "wooden_axe",
    "wooden_shovel", "wooden_hoe", "wooden_sword"]

/-- Whether a wood is called so that one of its members or recipes has the id of one of the given
wood. -/
inductive Derives (wood : String) : String → Prop where
  | stripped : Derives wood ("stripped_" ++ wood)
  | hanging : Derives wood (wood ++ "_hanging")
  | made {what : String} (isProduct : what ∈ products) : Derives wood (what ++ "_from_" ++ wood)

variable {wood other : String}

/-- A wood that is called after another one has a longer id. -/
theorem Derives.length_lt (derives : Derives wood other) : wood.length < other.length := by
  cases derives with
  | stripped =>
    rw [String.length_append]
    exact Nat.lt_add_of_pos_left (by decide)
  | hanging =>
    rw [String.length_append]
    exact Nat.lt_add_of_pos_right (by decide)
  | made =>
    rw [String.length_append, String.length_append]
    exact Nat.lt_add_of_pos_left (Nat.add_pos_right _ (by decide))

theorem Derives.ne (derives : Derives wood other) : wood ≠ other := by
  rintro rfl
  exact Nat.lt_irrefl _ derives.length_lt

theorem derives_of_shares {role otherRole : WoodRole}
    (shares : WoodRole.Shares wood role otherRole other) : Derives wood other := by
  cases shares with
  | log => exact .stripped
  | wood => exact .stripped
  | sign => exact .hanging

theorem role_eq_of_blockId_eq {role otherRole : WoodRole}
    (same : role.blockId wood = otherRole.blockId wood) : role = otherRole := by
  rcases WoodRole.blockId_eq_iff.1 same with ⟨sameRole, -⟩ | shares | shares
  · exact sameRole
  · exact absurd rfl (derives_of_shares shares).ne
  · exact absurd rfl (derives_of_shares shares).ne

/-- No product begins with another one, so that what is made from which wood can be read off. -/
theorem made_injective {what otherWhat : String} (isProduct : what ∈ products)
    (isOther : otherWhat ∈ products)
    (same : what ++ "_from_" ++ wood = otherWhat ++ "_from_" ++ other) :
    what = otherWhat ∧ wood = other := by
  have table : ∀ what ∈ products, ∀ other ∈ products,
      what.toList <+: other.toList → what = other := by
    decide
  have starts : what.toList <+: (what ++ "_from_" ++ wood).toList :=
    ⟨("_from_" ++ wood).toList, by simp⟩
  have otherStarts : otherWhat.toList <+: (what ++ "_from_" ++ wood).toList :=
    ⟨("_from_" ++ other).toList, by simp [same]⟩
  obtain rfl : what = otherWhat := by
    rcases List.prefix_or_prefix_of_prefix starts otherStarts with shorter | longer
    · exact table what isProduct otherWhat isOther shorter
    · exact (table otherWhat isOther what isProduct longer).symm
  exact ⟨rfl, (String.append_right_inj _).1 same⟩

/-- Ids of the blocks of a wood. -/
def blockIds (wood : String) : List String := WoodRole.all.map (·.blockId wood)

/-- Roles of the members that a wood has a recipe for. -/
def craftedRoles : List WoodRole :=
  [.planks, .wood, .strippedWood, .stairs, .slab, .fence, .fenceGate, .door, .trapdoor,
    .pressurePlate, .button, .sign, .hangingSign]

/-- Ids of the recipes of a wood. A product is made by a recipe that is called like planks. -/
def recipeIds (wood : String) : List String :=
  craftedRoles.map (·.blockId wood) ++
    products.map fun what => WoodRole.planks.blockId (what ++ "_from_" ++ wood)

theorem map_id_recipes (wood : String) : (recipes wood).map Recipe.id = recipeIds wood := by
  have made : ∀ what, what ++ "_from_" ++ WoodRole.planks.blockId wood =
      WoodRole.planks.blockId (what ++ "_from_" ++ wood) := fun what => by
    simp [WoodRole.blockId, WoodRole.isStripped, ← String.toList_inj]
  rw [recipeIds, ← funext made]
  rfl

theorem mem_recipeIds {id : String} :
    id ∈ recipeIds wood ↔ (∃ role ∈ craftedRoles, role.blockId wood = id) ∨
      ∃ what ∈ products, WoodRole.planks.blockId (what ++ "_from_" ++ wood) = id := by
  rw [recipeIds, List.mem_append, List.mem_map, List.mem_map]

theorem nodup_blockIds (wood : String) : (blockIds wood).Nodup :=
  List.Nodup.map (fun _ _ => role_eq_of_blockId_eq) (by decide)

theorem nodup_recipeIds (wood : String) : (recipeIds wood).Nodup := by
  rw [recipeIds, List.nodup_append']
  refine ⟨List.Nodup.map (fun _ _ => role_eq_of_blockId_eq) (by decide), ?_, ?_⟩
  · refine List.Nodup.map_on (fun what isProduct otherWhat isOther same => ?_) (by decide)
    exact (made_injective isProduct isOther (WoodRole.eq_of_blockId_planks same).2).1
  · intro id isMember isMade
    obtain ⟨role, -, rfl⟩ := List.mem_map.1 isMember
    obtain ⟨what, isProduct, same⟩ := List.mem_map.1 isMade
    exact (Derives.made isProduct).ne (WoodRole.eq_of_blockId_planks same.symm).2

theorem disjoint_blockIds (different : wood ≠ other) (notDerived : ¬Derives wood other)
    (notDeriving : ¬Derives other wood) : (blockIds wood).Disjoint (blockIds other) := by
  intro id isFirst isSecond
  obtain ⟨role, -, rfl⟩ := List.mem_map.1 isFirst
  obtain ⟨otherRole, -, same⟩ := List.mem_map.1 isSecond
  rcases WoodRole.blockId_eq_iff.1 same with ⟨-, sameWood⟩ | shares | shares
  · exact different sameWood.symm
  · exact notDeriving (derives_of_shares shares)
  · exact notDerived (derives_of_shares shares)

theorem disjoint_recipeIds (different : wood ≠ other) (notDerived : ¬Derives wood other)
    (notDeriving : ¬Derives other wood) : (recipeIds wood).Disjoint (recipeIds other) := by
  intro id isFirst isSecond
  rcases mem_recipeIds.1 isFirst with ⟨role, -, rfl⟩ | ⟨what, isProduct, rfl⟩ <;>
    rcases mem_recipeIds.1 isSecond with ⟨otherRole, -, same⟩ | ⟨otherWhat, isOther, same⟩
  · exact disjoint_blockIds different notDerived notDeriving
      (List.mem_map_of_mem role.mem_all) (same ▸ List.mem_map_of_mem otherRole.mem_all)
  · obtain ⟨-, rfl⟩ := WoodRole.eq_of_blockId_planks same.symm
    exact notDeriving (.made isOther)
  · obtain ⟨-, rfl⟩ := WoodRole.eq_of_blockId_planks same
    exact notDerived (.made isProduct)
  · have sameMade := (WoodRole.eq_of_blockId_planks same).2
    exact different (made_injective isOther isProduct sameMade).2.symm

/-- A wood shares an id with another one if it is the same, or one of them is called after the
other. -/
theorem disjoint_ids_iff :
    ((blockIds wood).Disjoint (blockIds other) ∧ (recipeIds wood).Disjoint (recipeIds other)) ↔
      wood ≠ other ∧ ¬Derives wood other ∧ ¬Derives other wood := by
  have shared : ∀ {wood other : String}, Derives wood other →
      ¬((blockIds wood).Disjoint (blockIds other) ∧
        (recipeIds wood).Disjoint (recipeIds other)) := by
    rintro wood other derives ⟨blocks, recipes⟩
    cases derives with
    | stripped =>
      refine blocks (List.mem_map_of_mem (WoodRole.mem_all .strippedLog)) ?_
      rw [WoodRole.Shares.log.blockId_eq]
      exact List.mem_map_of_mem (WoodRole.mem_all .log)
    | hanging =>
      refine blocks (List.mem_map_of_mem (WoodRole.mem_all .hangingSign)) ?_
      rw [WoodRole.Shares.sign.blockId_eq]
      exact List.mem_map_of_mem (WoodRole.mem_all .sign)
    | made isProduct =>
      exact recipes (mem_recipeIds.2 (.inr ⟨_, isProduct, rfl⟩))
        (mem_recipeIds.2 (.inl ⟨.planks, List.mem_cons_self, rfl⟩))
  constructor
  · intro disjoint
    refine ⟨?_, fun derives => shared derives disjoint, fun derives => shared derives ?_⟩
    · rintro rfl
      exact disjoint.1 List.mem_cons_self List.mem_cons_self
    · exact ⟨disjoint.1.symm, disjoint.2.symm⟩
  · rintro ⟨different, notDerived, notDeriving⟩
    exact ⟨disjoint_blockIds different notDerived notDeriving,
      disjoint_recipeIds different notDerived notDeriving⟩

/-- The blocks and the recipes of woods have different ids if the woods have, and none is called
after another one. -/
theorem nodup_ids_iff {woods : List String} :
    ((woods.flatMap blockIds).Nodup ∧ (woods.flatMap recipeIds).Nodup) ↔
      woods.Nodup ∧ ∀ wood ∈ woods, ∀ other ∈ woods, ¬Derives wood other := by
  rw [List.nodup_flatMap, List.nodup_flatMap]
  constructor
  · rintro ⟨⟨-, blocks⟩, -, recipes⟩
    have apart := (blocks.and recipes).imp fun disjoint => disjoint_ids_iff.1 disjoint
    refine ⟨apart.imp And.left, fun wood isWood other isOther derives => ?_⟩
    have : Std.Symm fun wood other : String =>
        wood ≠ other ∧ ¬Derives wood other ∧ ¬Derives other wood :=
      ⟨fun _ _ parts => ⟨parts.1.symm, parts.2.2, parts.2.1⟩⟩
    exact (apart.forall isWood isOther derives.ne).2.1 derives
  · rintro ⟨different, apart⟩
    have disjoint := different.imp_of_mem fun isWood isOther ne => disjoint_ids_iff.2
      ⟨ne, apart _ isWood _ isOther, apart _ isOther _ isWood⟩
    exact ⟨⟨fun wood _ => nodup_blockIds wood, disjoint.imp And.left⟩,
      fun wood _ => nodup_recipeIds wood, disjoint.imp And.right⟩

end WoodSpec

end Blockwright
