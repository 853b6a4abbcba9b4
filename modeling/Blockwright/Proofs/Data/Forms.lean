import Blockwright.Data.Loot
import Blockwright.Gate.Check
import Blockwright.Proofs.Json.Tidy
import Blockwright.Proofs.Outcome

/-!
# Forms of data files

Recipes and loot tables are written so that they can be read, and have what every file of their
kind must have.
-/

namespace Blockwright

namespace Gate

/-- The file of a tidy value with the members that its kind must have is in order. -/
theorem formFault?_pretty {kind : DataKind} {value : Json}
    (tidy : value.Tidy Json.Number.Legible Json.Document.depthLimit)
    (members : ∀ required ∈ kind.members, ∃ member, value.get? required.1 = some member ∧
      required.2.holds member.reread = true) :
    formFault? kind value.pretty.toUTF8 = none := by
  rw [formFault?, Json.parseBytes_toUTF8, tidy.parse_pretty_reread]
  dsimp only
  rw [Option.map_eq_none_iff, List.find?_eq_none]
  intro required isRequired
  obtain ⟨member, found, holds⟩ := members required isRequired
  simp [Json.get?_reread, found, holds]

end Gate

/-! ## Recipes -/

theorem Ingredient.tidy_toJson {test : Json.Number → Prop} {room : Nat} (deep : 1 < room)
    (ingredient : Ingredient) : ingredient.toJson.Tidy test room := by
  cases ingredient <;> exact Json.tidy_single deep (Json.tidy_text _)

namespace Recipe

variable {modId : String} {recipe : Recipe} {json : Json}

theorem tidy_craftingResult {room : Nat} (deep : 1 < room) (modId result : String)
    (count : UInt32) : (craftingResult modId result count).Tidy Json.Number.Legible room := by
  have small : count.toNat ≤ Json.Token.significandLimit :=
    Nat.le_trans (Nat.le_of_lt count.toNat_lt) (by decide)
  refine Json.tidy_ofMembers deep ?_
  simp only [List.forall_mem_cons, List.not_mem_nil, false_implies, implies_true, and_true]
  exact ⟨Json.tidy_text _, (Json.tidy_nat small).legible⟩

/-- A recipe is an object of tidy members with different keys, with a type and a result. -/
theorem toJson_eq_ok (written : recipe.toJson modId = .ok json) :
    ∃ members, json = Json.ofMembers members ∧ (members.map Prod.fst).Nodup ∧
      (∀ member ∈ members,
        member.2.Tidy Json.Number.Legible (Json.Document.depthLimit - 1)) ∧
      "type" ∈ members.map Prod.fst ∧ "result" ∈ members.map Prod.fst := by
  cases recipe with
  | shaped id category pattern key result count =>
    cases written
    refine ⟨_, rfl, by simp, ?_, by simp, by simp⟩
    simp only [List.forall_mem_cons, List.not_mem_nil, false_implies, implies_true, and_true]
    refine ⟨Json.tidy_text _, Json.tidy_text _, Json.tidy_texts _ (by decide),
      Json.tidy_ofMembers (by decide) fun member isMember => ?_,
      tidy_craftingResult (by decide) modId result count⟩
    obtain ⟨entry, -, rfl⟩ := List.mem_map.1 isMember
    exact Ingredient.tidy_toJson (by decide) _
  | shapeless id category ingredients result count =>
    cases written
    refine ⟨_, rfl, by simp, ?_, by simp, by simp⟩
    simp only [List.forall_mem_cons, List.not_mem_nil, false_implies, implies_true, and_true]
    refine ⟨Json.tidy_text _, Json.tidy_text _,
      Json.tidy_array (by decide) fun element isElement => ?_,
      tidy_craftingResult (by decide) modId result count⟩
    obtain ⟨reference, -, rfl⟩ := List.mem_map.1 isElement
    exact Ingredient.tidy_toJson (by decide) _
  | cooking id kind category ingredient result experience time =>
    have small : time.toNat ≤ Json.Token.significandLimit :=
      Nat.le_trans (Nat.le_of_lt time.toNat_lt) (by decide)
    rw [toJson] at written
    split at written
    · cases written
    · split at written
      · cases written
      · cases written
        refine ⟨_, rfl, by simp, ?_, by simp, by simp⟩
        simp only [List.forall_mem_cons, List.not_mem_nil, false_implies, implies_true, and_true]
        exact ⟨Json.tidy_text _, Json.tidy_text _, Ingredient.tidy_toJson (by decide) _,
          Json.tidy_single (by decide) (Json.tidy_text _), Json.tidy_double _,
          (Json.tidy_nat small).legible⟩

/-- The file of a recipe is in order. -/
theorem formFault?_toJson (written : recipe.toJson modId = .ok json) :
    Gate.formFault? .recipe json.pretty.toUTF8 = none := by
  obtain ⟨members, rfl, different, tidy, hasType, hasResult⟩ := toJson_eq_ok written
  refine Gate.formFault?_pretty (Json.tidy_ofMembers (by decide) tidy) ?_
  have found : ∀ key ∈ members.map Prod.fst, ∃ member,
      (Json.ofMembers members).get? key = some member ∧
        MemberForm.any.holds member.reread = true := by
    intro key isKey
    obtain ⟨member, isMember, rfl⟩ := List.mem_map.1 isKey
    exact ⟨member.2, (Json.get?_ofMembers different).2 isMember, rfl⟩
  simp only [DataKind.members, List.forall_mem_cons, List.not_mem_nil, false_implies,
    implies_true, and_true]
  exact ⟨found "type" hasType, found "result" hasResult⟩

end Recipe

/-! ## Loot tables -/

namespace Loot

variable (modId id block : String) (shape : Shape)

theorem tidy_whenProperty {room : Nat} (deep : 2 < room) (property value : String) :
    (whenProperty block property value).Tidy Json.Number.Legible room := by
  refine Json.tidy_ofMembers (by omega) ?_
  simp only [List.forall_mem_cons, List.not_mem_nil, false_implies, implies_true, and_true]
  exact ⟨Json.tidy_text _, Json.tidy_text _, Json.tidy_single (by omega) (Json.tidy_text _)⟩

theorem tidy_shapeMembers {room : Nat} (deep : 5 < room) :
    ∀ member ∈ shapeMembers block shape, member.2.Tidy Json.Number.Legible room := by
  have condition : ∀ {room}, 3 < room → ∀ property value : String,
      (Json.array [whenProperty block property value]).Tidy Json.Number.Legible room := by
    intro room deep property value
    refine Json.tidy_array (by omega) ?_
    rw [List.forall_mem_singleton]
    exact tidy_whenProperty block (by omega) property value
  cases shape
  case door =>
    rw [shapeMembers, List.forall_mem_singleton]
    exact condition (by omega) "half" "lower"
  case slab =>
    rw [shapeMembers, List.forall_mem_singleton]
    refine Json.tidy_array (by omega) ?_
    rw [List.forall_mem_singleton]
    refine Json.tidy_ofMembers (by omega) ?_
    simp only [List.forall_mem_cons, List.not_mem_nil, false_implies, implies_true, and_true]
    exact ⟨Json.tidy_text _, Json.tidy_bool _, Json.tidy_real (by decide +kernel),
      condition (by omega) "type" "double"⟩
  all_goals simp [shapeMembers]

theorem tidy_table : (table modId id shape).Tidy Json.Number.Legible Json.Document.depthLimit := by
  refine Json.tidy_ofMembers (by decide) ?_
  simp only [List.forall_mem_cons, List.not_mem_nil, false_implies, implies_true, and_true]
  refine ⟨Json.tidy_text _, Json.tidy_array (by decide) ?_⟩
  rw [List.forall_mem_singleton]
  refine Json.tidy_ofMembers (by decide) ?_
  simp only [List.forall_mem_cons, List.not_mem_nil, false_implies, implies_true, and_true]
  refine ⟨Json.tidy_real (by decide +kernel), Json.tidy_real (by decide +kernel),
    Json.tidy_array (by decide) ?_, Json.tidy_array (by decide) ?_⟩
  · rw [List.forall_mem_singleton]
    refine Json.tidy_ofMembers (by decide) fun member isMember => ?_
    rcases List.mem_append.1 isMember with isCommon | isOwn
    · simp only [List.mem_cons, List.not_mem_nil, or_false] at isCommon
      rcases isCommon with rfl | rfl <;> exact Json.tidy_text _
    · exact tidy_shapeMembers _ shape (by decide) member isOwn
  · rw [List.forall_mem_singleton]
    exact Json.tidy_single (by decide) (Json.tidy_text _)

/-- The file of a loot table is in order. -/
theorem formFault?_table :
    Gate.formFault? .lootTable (table modId id shape).pretty.toUTF8 = none := by
  refine Gate.formFault?_pretty (tidy_table modId id shape) ?_
  simp only [DataKind.members, List.forall_mem_cons, List.not_mem_nil, false_implies,
    implies_true, and_true]
  refine ⟨⟨_, (Json.get?_ofMembers (by simp)).2 List.mem_cons_self, rfl⟩,
    ⟨_, (Json.get?_ofMembers (by simp)).2 (List.mem_cons_of_mem _ List.mem_cons_self), rfl⟩⟩

end Loot

end Blockwright
