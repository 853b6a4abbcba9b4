import Blockwright.Proofs.Spec.Woods
import Blockwright.Proofs.Text.Pieces
import Blockwright.Proofs.Text.Replacing

/-!
# Names of wood family members

The title of an id is that of its parts between underscores. A member is named by its title-cased id
with the display name of the wood in place of the wood's own title, wherever that stands. So the
name is right for every display name exactly if the title of the wood stands there only once.
-/

namespace Blockwright

/-! ## Titles of ids -/

namespace Slug

/-- The capitalized words of an id. -/
def titleWords (id : String) : List String :=
  ((Text.pieces (· == '_') id.toList).filter (fun word => !word.isEmpty)).map
    (fun word => String.ofList (capitalize word))

theorem titleCase_eq (id : String) : titleCase id = " ".intercalate (titleWords id) :=
  Text.join_eq_intercalate " " (titleWords id)

theorem titleWords_append (front rest : String) :
    titleWords (front ++ "_" ++ rest) = titleWords front ++ titleWords rest := by
  have parts : Text.pieces (· == '_') (front ++ "_" ++ rest).toList =
      Text.pieces (· == '_') front.toList ++ Text.pieces (· == '_') rest.toList := by
    rw [String.toList_append, String.toList_append, List.append_assoc]
    simp only [Text.pieces_eq_splitOnP]
    exact List.splitOnP_append_cons front.toList rest.toList (by decide)
  rw [titleWords, parts, List.filter_append, List.map_append]
  rfl

theorem titleCase_append {front rest : String} (frontWords : titleWords front ≠ [])
    (restWords : titleWords rest ≠ []) :
    titleCase (front ++ "_" ++ rest) = titleCase front ++ " " ++ titleCase rest := by
  rw [titleCase_eq, titleWords_append, String.intercalate_append_of_ne_nil frontWords restWords,
    titleCase_eq, titleCase_eq]

theorem exists_titleWords {id : String} (slug : IsSlug id) :
    ∃ first rest others, titleWords id = String.ofList (first :: rest) :: others ∧
      first.isUpper = true := by
  obtain ⟨first, rest, form, lower, -⟩ := slug
  obtain ⟨front, others, pieces⟩ := List.exists_cons_of_ne_nil (Text.pieces_ne_nil (· == '_') rest)
  have letter : first.isLower = true := isLower_iff.2 lower
  have notSeparator : (first == '_') = false := by
    rw [beq_eq_false_iff_ne]
    rintro rfl
    cases letter
  refine ⟨first.toUpper, front, (others.filter (fun word => !word.isEmpty)).map
    (fun word => String.ofList (capitalize word)), ?_, ?_⟩
  · rw [titleWords, form, Text.pieces, notSeparator, pieces]
    rfl
  · rw [Char.isUpper_toUpper_eq_isAlpha, Char.isAlpha, letter, Bool.or_true]

theorem titleWords_ne_nil {id : String} (slug : IsSlug id) : titleWords id ≠ [] := by
  obtain ⟨first, rest, others, form, -⟩ := exists_titleWords slug
  rw [form]
  exact List.cons_ne_nil _ _

theorem exists_titleCase {id : String} (slug : IsSlug id) :
    ∃ first rest, (titleCase id).toList = first :: rest ∧ first.isUpper = true := by
  obtain ⟨first, rest, others, form, upper⟩ := exists_titleWords slug
  rw [titleCase_eq, form]
  cases others with
  | nil => exact ⟨first, rest, by simp, upper⟩
  | cons second others =>
    refine ⟨first, rest ++ (" " ++ " ".intercalate (second :: others)).toList, ?_, upper⟩
    simp [String.intercalate_cons_cons]

end Slug

/-! ## Names of members -/

namespace WoodRole

/-- The title-cased words of a role. -/
def words : WoodRole → String
  | .log => "Log"
  | .wood => "Wood"
  | .strippedLog => "Log"
  | .strippedWood => "Wood"
  | .planks => "Planks"
  | .stairs => "Stairs"
  | .slab => "Slab"
  | .fence => "Fence"
  | .fenceGate => "Fence Gate"
  | .door => "Door"
  | .trapdoor => "Trapdoor"
  | .pressurePlate => "Pressure Plate"
  | .button => "Button"
  | .sign => "Sign"
  | .hangingSign => "Hanging Sign"

/-- What stands in front of the name of the wood in the name of a member. -/
def mark (role : WoodRole) : String := if role.isStripped then "Stripped " else ""

/-- The name of a member of a wood with a name. -/
def titled (role : WoodRole) (name : String) : String := role.mark ++ name ++ " " ++ role.words

/-- Whether the title of a wood stands at the front of a stripped member's name or among the words
of the role. -/
def Echoes (role : WoodRole) (title : String) : Prop :=
  (role.isStripped = true ∧ title.toList <+: ("Stripped " ++ title).toList) ∨
    title.toList <:+: role.words.toList

instance (role : WoodRole) (title : String) : Decidable (role.Echoes title) :=
  inferInstanceAs (Decidable (_ ∨ _))

theorem titleCase_blockId (role : WoodRole) {wood : String} (slug : Slug.IsSlug wood) :
    Slug.titleCase (role.blockId wood) = role.titled (Slug.titleCase wood) := by
  have nounWords : Slug.titleWords role.noun ≠ [] := by cases role <;> decide
  have words : Slug.titleCase role.noun = role.words := by cases role <;> decide
  have woodWords := Slug.titleWords_ne_nil slug
  rw [blockId, titled, mark]
  split
  · have front : "stripped_" ++ wood = "stripped" ++ "_" ++ wood := rfl
    have frontWords : Slug.titleWords ("stripped" ++ "_" ++ wood) ≠ [] := by
      rw [Slug.titleWords_append]
      exact List.append_ne_nil_of_right_ne_nil _ woodWords
    rw [front, Slug.titleCase_append frontWords nounWords,
      Slug.titleCase_append (by decide) woodWords, words]
    rfl
  · rw [String.empty_append, String.empty_append, Slug.titleCase_append woodWords nounWords, words]

end WoodRole

namespace WoodSpec

variable {role : WoodRole}

theorem memberTitle_eq {wood : WoodSpec} (slug : Slug.IsSlug wood.id) (role : WoodRole) :
    wood.memberTitle (role.blockId wood.id) =
      Text.replace (Slug.titleCase wood.id) wood.title (role.titled (Slug.titleCase wood.id)) := by
  rw [memberTitle, role.titleCase_blockId slug]

theorem not_mem_of_isUpper {c : Char} (upper : c.isUpper = true) {text : String}
    (small : text.toList.all (fun c => !c.isUpper) = true) : c ∉ text.toList := by
  intro isCharacter
  simpa [upper] using List.all_eq_true.1 small c isCharacter

theorem title_some (id name : String) : title { id, displayName := some name } = name := rfl

/-- What stands in front of the name of the wood stays unless the wood's own title is found
there. -/
theorem replace_mark {title : String} {first : Char} {rest : List Char}
    (form : title.toList = first :: rest) (upper : first.isUpper = true)
    (clear : ¬(role.isStripped = true ∧ title.toList <+: ("Stripped " ++ title).toList))
    (replacement behind : List Char) :
    Text.replaceFrom title.toList replacement 0 (role.mark.toList ++ (title.toList ++ behind)) =
      role.mark.toList ++
        Text.replaceFrom title.toList replacement 0 (title.toList ++ behind) := by
  rw [WoodRole.mark]
  split
  · next stripped =>
    have notHere : ¬title.toList <+: 'S' :: ("tripped ".toList ++ (title.toList ++ behind)) := by
      intro starts
      have whole : ("Stripped " ++ title).toList <+: 'S' :: ("tripped ".toList ++
          (title.toList ++ behind)) := ⟨behind, by simp⟩
      refine clear ⟨stripped, List.prefix_of_prefix_length_le starts whole ?_⟩
      rw [String.toList_append, List.length_append]
      exact Nat.le_add_left _ _
    have lower : first ∉ "tripped ".toList := not_mem_of_isUpper upper (by decide)
    have parts : "Stripped ".toList = 'S' :: "tripped ".toList := rfl
    rw [parts, List.cons_append, Text.replaceFrom_cons notHere, form,
      Text.replaceFrom_append_of_not_mem lower]
    rfl
  · rfl

theorem memberTitle_of_clear (wood : WoodSpec) (slug : Slug.IsSlug wood.id)
    (clear : ¬(role.isStripped = true ∧
      (Slug.titleCase wood.id).toList <+: ("Stripped " ++ Slug.titleCase wood.id).toList)) :
    wood.memberTitle (role.blockId wood.id) = role.mark ++ wood.title ++ " " ++
      Text.replace (Slug.titleCase wood.id) wood.title role.words := by
  obtain ⟨first, rest, form, upper⟩ := Slug.exists_titleCase slug
  have notEmpty : (Slug.titleCase wood.id).toList ≠ [] := form ▸ List.cons_ne_nil _ _
  have notBlank : first ∉ " ".toList := not_mem_of_isUpper upper (by decide)
  rw [memberTitle_eq slug, WoodRole.titled, Text.replace, Text.replace, ← String.toList_inj]
  simp only [String.toList_append, String.toList_ofList, List.append_assoc]
  rw [replace_mark form upper clear, Text.replaceFrom_append notEmpty, form,
    Text.replaceFrom_append_of_not_mem notBlank]

/-- A member is named after its wood whatever that is called, unless the title of the wood stands
in its name twice. -/
theorem memberTitle_iff {id : String} (slug : Slug.IsSlug id) (role : WoodRole) :
    (∀ name, memberTitle { id, displayName := some name } (role.blockId id) = role.titled name) ↔
      ¬role.Echoes (Slug.titleCase id) := by
  obtain ⟨first, rest, title, -⟩ := Slug.exists_titleCase slug
  have notEmpty : (Slug.titleCase id).toList ≠ [] := title ▸ List.cons_ne_nil _ _
  constructor
  · intro named echoes
    -- No title has an exclamation mark, so that it shows where a name was put.
    have marked := named "!"
    by_cases front : role.isStripped = true ∧
        (Slug.titleCase id).toList <+: ("Stripped " ++ Slug.titleCase id).toList
    · obtain ⟨stripped, behind, form⟩ := front
      rw [memberTitle_eq slug, Text.replace, WoodRole.titled, WoodRole.mark, if_pos stripped,
        String.append_assoc, String.toList_append, ← form, List.append_assoc,
        Text.replaceFrom_append notEmpty, ← String.toList_inj] at marked
      simp [title_some, WoodRole.titled, WoodRole.mark, stripped] at marked
    · have occurs := echoes.resolve_left front
      have put : '!' ∈ Text.replaceFrom (Slug.titleCase id).toList "!".toList 0 role.words.toList :=
        Text.mem_replaceFrom notEmpty occurs (by decide)
      rw [memberTitle_of_clear { id, displayName := some "!" } slug front, title_some,
        WoodRole.titled, String.append_right_inj, Text.replace, ← String.toList_inj,
        String.toList_ofList] at marked
      rw [marked] at put
      revert put
      cases role <;> decide
  · intro clear name
    obtain ⟨front, absent⟩ := not_or.1 clear
    rw [memberTitle_of_clear { id, displayName := some name } slug front, Text.replace,
      Text.replaceFrom_of_not_infix absent, String.ofList_toList]
    rfl

end WoodSpec

namespace Specification

variable {spec : Specification} {catalog : Catalog}

/-- The members of a wood are named after it whatever it is called, unless its own title stands in
their names twice. -/
theorem named_members (expanded : spec.expand = .ok catalog) {wood : WoodSpec}
    (isWood : wood ∈ spec.woods) (role : WoodRole) :
    wood.member role ∈ catalog.blocks ∧
      ((∀ name, (WoodSpec.member { wood with displayName := some name } role).entity.displayName =
          role.titled name) ↔
        ¬role.Echoes (Slug.titleCase wood.id)) := by
  obtain ⟨items, declared, order, rfl⟩ := expand_eq_ok.1 expanded
  have slug := (WoodSpec.check_eq_ok.1 (order.woods wood isWood)).1
  have isMember : wood.member role ∈ wood.members := List.mem_map_of_mem (WoodRole.mem_all role)
  exact ⟨List.mem_append_right _ (List.mem_flatMap.2 ⟨wood, isWood, isMember⟩),
    WoodSpec.memberTitle_iff slug role⟩

/-- A mod with one wood. -/
def ofWood (id displayName : String) : Specification :=
  { modId := "ab", woods := [{ id, displayName := some displayName }] }

theorem expands_ofWood {id : String} (slug : Slug.IsSlug id) (short : id.length ≤ WoodSpec.limit)
    (displayName : String) : (ofWood id displayName).Expands [] [] :=
  (expands_woods_iff (by decide) (by decide)).2 (WoodSpec.listable_of_length
    (List.forall_mem_singleton.2 ⟨slug, rfl⟩) short (List.nodup_singleton id))

theorem named_members_maple :
    ∃ catalog, (ofWood "maple" "Sugar Maple").expand = .ok catalog ∧
      ∃ block ∈ catalog.blocks, block.id = "stripped_maple_log" ∧
        block.entity.displayName = "Stripped Sugar Maple Log" := by
  have slug : Slug.IsSlug "maple" := Slug.isValid_iff.1 (by decide)
  have expanded := expand_woods_eq_ok.2 ⟨expands_ofWood slug (by decide) "Sugar Maple", rfl⟩
  obtain ⟨isBlock, named⟩ := named_members expanded List.mem_cons_self .strippedLog
  exact ⟨_, expanded, _, isBlock, rfl, named.2 (by decide) "Sugar Maple"⟩

/-- The members of a wood that is called like one of its roles get its name twice. -/
theorem named_twice :
    ∃ catalog, (ofWood "wood" "Ironwood").expand = .ok catalog ∧
      ∃ block ∈ catalog.blocks, block.id = WoodRole.wood.blockId "wood" ∧
        block.entity.displayName = "Ironwood Ironwood" ∧
        WoodRole.wood.titled "Ironwood" = "Ironwood Wood" := by
  have slug : Slug.IsSlug "wood" := Slug.isValid_iff.1 (by decide)
  have expanded := expand_woods_eq_ok.2 ⟨expands_ofWood slug (by decide) "Ironwood", rfl⟩
  exact ⟨_, expanded, _, List.mem_cons_of_mem _ List.mem_cons_self, rfl, by decide, by decide⟩

end Specification

end Blockwright
