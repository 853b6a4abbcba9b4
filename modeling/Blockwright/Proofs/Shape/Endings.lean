import Blockwright.Gate.Settings
import Blockwright.Proofs.Tree.Location
import Blockwright.Shape.Model
import Blockwright.Spec.Wood

/-!
# Endings of ids

The shape of a block and the material of a sign are read off the ending of an id. An ending that no
longer one in a table ends with decides alone, so that what stands in front of it does not matter.
The ids of a wood family tell the shapes of its members, but for the sign of a wood whose id ends
with `_hanging`: that is also the id of the hanging sign of another wood.
-/

namespace Blockwright

/-! ## Dropping an ending -/

namespace Text

theorem dropEnd?_append (front ending : String) :
    dropEnd? ending (front ++ ending) = some front := by
  rw [dropEnd?, if_pos (isSuffixOf_iff.2 ⟨front, rfl⟩)]
  simp

theorem dropEnd?_eq_none {ending text : String}
    (notEnding : ∀ front, text ≠ front ++ ending) : dropEnd? ending text = none := by
  rw [dropEnd?, if_neg]
  intro ends
  obtain ⟨front, same⟩ := isSuffixOf_iff.1 ends
  exact notEnding front same

end Text

/-! ## Endings that decide -/

/-- Whether a pattern accepts every text with an ending, or none. -/
def Pattern.isDecidedBy (ending : String) : Pattern → Bool
  | .endsWith text => text.length ≤ ending.length || !ending.toList.isSuffixOf text.toList
  | .always => true
  | _ => false

theorem Pattern.accepts_append {pattern : Pattern} {ending : String}
    (decided : pattern.isDecidedBy ending = true) (front : String) :
    pattern.accepts (front ++ ending) = pattern.accepts ending := by
  cases pattern with
  | endsWith text =>
    rw [Bool.eq_iff_iff, accepts, accepts, List.isSuffixOf_iff_suffix, List.isSuffixOf_iff_suffix,
      String.toList_append]
    have ofEnding : ending.toList <:+ front.toList ++ ending.toList := List.suffix_append _ _
    refine ⟨fun ends => ?_, fun ends => ends.trans ofEnding⟩
    simp only [isDecidedBy, Bool.or_eq_true, decide_eq_true_eq, Bool.not_eq_true',
      ← Bool.not_eq_true, List.isSuffixOf_iff_suffix] at decided
    rcases decided with shorter | notEnding
    · exact List.suffix_of_suffix_length_le ends ofEnding shorter
    · rcases List.suffix_or_suffix_of_suffix ends ofEnding with inside | outside
      · exact inside
      · exact absurd outside notEnding
  | always => rfl
  | _ => cases decided

theorem RuleTable.classify_append {α : Type} {table : RuleTable α} {ending : String}
    (decided : table.all (fun rule => rule.pattern.isDecidedBy ending) = true) (front : String) :
    table.classify (front ++ ending) = table.classify ending := by
  rw [List.all_eq_true] at decided
  rw [classify, classify, List.find?_congr fun rule isRule =>
    Pattern.accepts_append (decided rule isRule) front]

/-! ## Wood families -/

namespace WoodRole

/-- Whether a member is a sign that has the id of a hanging sign of another wood. -/
def LooksHanging (role : WoodRole) (wood : String) : Prop :=
  role = .sign ∧ ∃ other, wood = other ++ "_hanging"

theorem blockId_sign (wood : String) : sign.blockId wood = wood ++ "_sign" := by
  simp [blockId, isStripped, noun, ← String.toList_inj]

theorem blockId_hangingSign (wood : String) :
    hangingSign.blockId wood = wood ++ "_hanging_sign" := by
  simp [blockId, isStripped, noun, ← String.toList_inj]

theorem blockId_sign_hanging (wood : String) :
    sign.blockId (wood ++ "_hanging") = hangingSign.blockId wood := by
  simp [blockId, isStripped, noun, ← String.toList_inj]

theorem ofId_blockId {role : WoodRole} (other : role ≠ .sign) (wood : String) :
    Shape.ofId (role.blockId wood) = role.shape := by
  have parts : role.blockId wood =
      (if role.isStripped then "stripped_" else "") ++ wood ++ ("_" ++ role.noun) := by
    rw [blockId, String.append_assoc]
  have decided :
      Shape.rules.all (fun rule => rule.pattern.isDecidedBy ("_" ++ role.noun)) = true := by
    cases role <;> first | decide | exact absurd rfl other
  rw [parts, Shape.ofId, RuleTable.classify_append decided]
  cases role <;> decide

theorem hanging_of_sign {wood other : String} (same : wood ++ "_sign" = other ++ "_hanging_sign") :
    wood = other ++ "_hanging" := by
  rw [← String.toList_inj, ← List.append_left_inj "_sign".toList, ← String.toList_append, same]
  simp

theorem ofId_sign {wood : String} (notHanging : ∀ other, wood ≠ other ++ "_hanging") :
    Shape.ofId (sign.blockId wood) = .sign := by
  have refused : Pattern.accepts (wood ++ "_sign") (.endsWith "_hanging_sign") = false := by
    rw [Pattern.accepts, ← Bool.not_eq_true, Text.isSuffixOf_iff]
    rintro ⟨other, same⟩
    exact notHanging other (hanging_of_sign same)
  have others : RuleTable.classify Shape.rules.tail (wood ++ "_sign") = some Shape.sign :=
    RuleTable.classify_append (by decide) wood
  rw [blockId_sign, Shape.ofId, Shape.rules, RuleTable.classify, List.find?_cons, refused]
  exact congrArg (Option.getD · .cube) others

theorem signMaterial_sign {wood : String} (notHanging : ∀ other, wood ≠ other ++ "_hanging") :
    Shape.signMaterial (sign.blockId wood) = wood := by
  have notEnding : Text.dropEnd? "_hanging_sign" (wood ++ "_sign") = none :=
    Text.dropEnd?_eq_none fun other same => notHanging other (hanging_of_sign same)
  rw [blockId_sign, Shape.signMaterial, notEnding, Text.dropEnd?_append]
  rfl

theorem signMaterial_hangingSign (wood : String) :
    Shape.signMaterial (hangingSign.blockId wood) = wood := by
  rw [blockId_hangingSign, Shape.signMaterial, Text.dropEnd?_append]
  rfl

/-- The id of a member tells its shape, also to a gate without stated shapes, and that of a sign
what it is made of, unless it is a sign with the id of a hanging sign. -/
theorem blockId_tells (role : WoodRole) (wood modId : String) (blockIds : List String) :
    (Shape.ofId (role.blockId wood) = role.shape ↔ ¬role.LooksHanging wood) ∧
      (GateSettings.shape { modId, blockIds } (role.blockId wood) = role.shape ↔
        ¬role.LooksHanging wood) ∧
      (Shape.signMaterial (sign.blockId wood) = wood ↔ ¬sign.LooksHanging wood) ∧
      Shape.signMaterial (hangingSign.blockId wood) = wood := by
  have shape : Shape.ofId (role.blockId wood) = role.shape ↔ ¬role.LooksHanging wood := by
    constructor
    · rintro same ⟨rfl, other, rfl⟩
      rw [blockId_sign_hanging, ofId_blockId (by decide)] at same
      cases same
    · intro apart
      by_cases isSign : role = .sign
      · subst isSign
        exact ofId_sign fun other same => apart ⟨rfl, other, same⟩
      · exact ofId_blockId isSign wood
  have material : Shape.signMaterial (sign.blockId wood) = wood ↔ ¬sign.LooksHanging wood := by
    constructor
    · rintro same ⟨-, other, rfl⟩
      rw [blockId_sign_hanging, signMaterial_hangingSign] at same
      have longer := congrArg String.length same
      simp at longer
    · exact fun apart => signMaterial_sign fun other same => apart ⟨rfl, other, same⟩
  exact ⟨shape, shape, material, signMaterial_hangingSign wood⟩

/-- The sign of a wood that is called hanging is taken for a hanging sign. -/
theorem blockId_tells_hanging :
    Slug.isValid "oak_hanging" = true ∧
      Shape.ofId (sign.blockId "oak_hanging") = .hangingSign ∧ sign.shape = .sign ∧
      Shape.signMaterial (sign.blockId "oak_hanging") = "oak" := by
  decide

end WoodRole

end Blockwright
