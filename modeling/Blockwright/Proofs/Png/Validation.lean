import Blockwright.Png.Validation
import Blockwright.Proofs.Png.Normalizing

/-!
# What validation says

A texture is valid exactly if it can be read and obeys the rules whose violation is an error. The
violations of a texture that can be read are those of the broken rules in their order, and an
invalid texture always has a first error.
-/

namespace Blockwright

/-- Whether an image obeys a rule, told by its pixels. -/
def TextureRule.Obeyed (png : Png) (image : Image) : TextureRule → Prop
  | .colorType => png.header.color.byte = 2 ∨ png.header.color.byte = 6
  | .minimumSize => 16 ≤ image.width ∧ 16 ≤ image.height
  | .alpha => ∃ pixel ∈ image.pixels, pixel.alpha ≠ 0
  | .distinctValues => ∃ first ∈ image.pixels, ∃ second ∈ image.pixels, first ≠ second
  | .gridAlignment => 16 ∣ image.width.toNat ∧ 16 ∣ image.height.toNat

/-- Whether bytes are a texture that the game loads. -/
def Png.IsLoadable (bytes : List UInt8) : Prop :=
  ∃ png image, decode bytes = .ok png ∧ png.toImage = .ok image ∧
    (png.header.color.byte = 2 ∨ png.header.color.byte = 6) ∧
    16 ≤ png.header.width ∧ 16 ≤ png.header.height ∧
    (∃ pixel ∈ image.pixels, pixel.alpha ≠ 0) ∧
    ∃ first ∈ image.pixels, ∃ second ∈ image.pixels, first ≠ second

theorem Image.get_first_mem {image : Image} {pixel : Pixel} (isPixel : pixel ∈ image.pixels) :
    image.get 0 0 ∈ image.pixels := by
  have nonempty : 0 < image.pixels.size := by
    rw [Array.size_pos_iff]
    rintro none
    simp [none] at isPixel
  rw [get, Nat.zero_mul, Nat.zero_add, Array.getD, dif_pos nonempty]
  exact Array.getElem_mem nonempty

/-- An image has two different pixels exactly if one of them is not the first one. -/
theorem Image.exists_ne_first {image : Image} :
    (∃ pixel ∈ image.pixels, pixel ≠ image.get 0 0) ↔
      ∃ first ∈ image.pixels, ∃ second ∈ image.pixels, first ≠ second := by
  constructor
  · rintro ⟨pixel, isPixel, unlike⟩
    exact ⟨pixel, isPixel, image.get 0 0, get_first_mem isPixel, unlike⟩
  · rintro ⟨first, isFirst, second, isSecond, different⟩
    by_cases same : first = image.get 0 0
    · exact ⟨second, isSecond, fun other => different (same.trans other.symm)⟩
    · exact ⟨first, isFirst, same⟩

namespace TextureRule

variable {png : Png} {image : Image} {rule : TextureRule}

theorem mem_all (rule : TextureRule) : rule ∈ all := by
  cases rule <;> decide

theorem severity_eq_error : rule.severity = .error ↔ rule ≠ .gridAlignment := by
  cases rule <;> decide

theorem isTruecolor_iff_byte {color : ColorType} :
    color.isTruecolor = true ↔ color.byte = 2 ∨ color.byte = 6 := by
  cases color <;> decide

theorem mod_sixteen_beq_zero (side : UInt32) : (side % 16 == 0) = true ↔ 16 ∣ side.toNat := by
  rw [beq_iff_eq, ← UInt32.toNat_inj, UInt32.toNat_mod]
  exact Nat.dvd_iff_mod_eq_zero.symm

theorem holds_iff : rule.holds png image = true ↔ rule.Obeyed png image := by
  cases rule with
  | colorType => exact isTruecolor_iff_byte
  | minimumSize =>
    simp only [holds, Bool.and_eq_true, decide_eq_true_eq]
    exact Iff.rfl
  | alpha => simp only [holds, Obeyed, Pixel.isVisible, Array.any_eq_true', bne_iff_ne]
  | distinctValues =>
    simp only [holds, Obeyed, Array.any_eq_true', bne_iff_ne]
    exact Image.exists_ne_first
  | gridAlignment => simp only [holds, Obeyed, Bool.and_eq_true, mod_sixteen_beq_zero]

/-- The rules that an image breaks, in their order. -/
def broken (png : Png) (image : Image) : List TextureRule :=
  all.filter fun rule => !rule.holds png image

/-- Nothing keeps an image out exactly if it obeys every rule whose violation is an error. -/
theorem firstError?_eq_none :
    Violation.firstError? (violations png image) = none ↔
      ∀ rule ∈ all, rule.severity = .error → rule.holds png image = true := by
  simp only [Violation.firstError?, violations, List.find?_eq_none, List.forall_mem_map,
    List.mem_filter, violation, decide_eq_true_eq, and_imp, Bool.not_eq_true']
  constructor
  · intro valid rule isRule isError
    by_contra broken
    exact valid rule isRule (by simpa using broken) isError
  · intro each rule isRule broken isError
    rw [each rule isRule isError] at broken
    cases broken

end TextureRule

namespace Validation

variable {path : String} {png : Png} {image : Image} {bytes : List UInt8}

/-- A validation has an error exactly if it can tell the first one. -/
theorem isSome_firstError? (validation : Validation) :
    validation.firstError?.isSome = true ↔ validation.hasErrors = true := by
  rw [firstError?, Option.isSome_map, Violation.firstError?, List.find?_isSome, hasErrors,
    List.any_eq_true]

theorem violations_ofImage (path : String) (png : Png) (image : Image) :
    (ofImage path png image).violations = TextureRule.violations png image := by
  rw [ofImage]
  split <;> rfl

theorem valid_ofImage (path : String) (png : Png) (image : Image) :
    (ofImage path png image).valid = !(ofImage path png image).hasErrors := by
  rw [hasErrors, violations_ofImage, ofImage]
  split
  · next error => rw [error]; rfl
  · next noError => rw [Bool.eq_false_iff.2 noError]; rfl

theorem hasErrors_ofImage :
    (ofImage path png image).hasErrors = false ↔
      ∀ rule ≠ TextureRule.gridAlignment, rule.Obeyed png image := by
  rw [← Bool.not_eq_true, ← isSome_firstError?, Option.not_isSome_iff_eq_none, firstError?,
    Option.map_eq_none_iff, violations_ofImage, TextureRule.firstError?_eq_none]
  simp only [TextureRule.mem_all, TextureRule.severity_eq_error, TextureRule.holds_iff,
    true_implies]

/-! ## Bytes -/

theorem ofBytes?_of_toImage (path : String) (decoded : Png.decode bytes = .ok png)
    (made : png.toImage = .ok image) : ofBytes? path bytes = some (ofImage path png image) := by
  rw [ofBytes?, decoded]
  dsimp only
  rw [made]

/-- What is said of bytes that are an image is what the rules say of it, and other bytes have an
error. -/
theorem ofBytes?_cases {validation : Validation} (said : ofBytes? path bytes = some validation) :
    (∃ png image, Png.decode bytes = .ok png ∧ png.toImage = .ok image ∧
        validation = ofImage path png image) ∨
      (∀ png image, Png.decode bytes = .ok png → png.toImage ≠ .ok image) ∧
        ∃ error remedies, validation = failure path [Violation.ofError error remedies] := by
  rw [ofBytes?] at said
  split at said
  · cases said
  · next error _ decoded =>
    cases said
    exact .inr ⟨fun _ _ isDecoded => by simp [decoded] at isDecoded, error, _, rfl⟩
  · next png decoded =>
    split at said
    · next error failed =>
      cases said
      refine .inr ⟨fun _ image isDecoded isMade => ?_, error, _, rfl⟩
      cases decoded.symm.trans isDecoded
      cases failed.symm.trans isMade
    · next image made =>
      cases said
      exact .inl ⟨png, image, decoded, made, rfl⟩

section Said

variable {validation : Validation} (said : ofBytes? path bytes = some validation)
include said

theorem valid_of_ofBytes? : validation.valid = !validation.hasErrors := by
  rcases ofBytes?_cases said with ⟨png, image, -, -, rfl⟩ | ⟨-, error, remedies, rfl⟩
  · exact valid_ofImage path png image
  · rfl

theorem hasErrors_of_ofBytes? : validation.hasErrors = false ↔ Png.IsLoadable bytes := by
  rcases ofBytes?_cases said with
    ⟨png, image, decoded, made, rfl⟩ | ⟨unreadable, error, remedies, rfl⟩
  · rw [hasErrors_ofImage]
    obtain ⟨width, height, -⟩ := Png.toImage_eq_ok made
    constructor
    · intro obeyed
      obtain ⟨wide, high⟩ := obeyed .minimumSize (by decide)
      exact ⟨png, image, decoded, made, obeyed .colorType (by decide), width ▸ wide, height ▸ high,
        obeyed .alpha (by decide), obeyed .distinctValues (by decide)⟩
    · rintro ⟨_, _, otherDecoded, otherMade, color, wide, high, seen, varied⟩ rule isError
      cases decoded.symm.trans otherDecoded
      cases made.symm.trans otherMade
      cases rule with
      | colorType => exact color
      | minimumSize => exact ⟨width.symm ▸ wide, height.symm ▸ high⟩
      | alpha => exact seen
      | distinctValues => exact varied
      | gridAlignment => exact absurd rfl isError
  · refine iff_of_false (by simp [hasErrors, failure, Violation.ofError]) ?_
    rintro ⟨png, image, decoded, made, -⟩
    exact unreadable png image decoded made

theorem valid_iff_isLoadable : validation.valid = true ↔ Png.IsLoadable bytes := by
  rw [valid_of_ofBytes? said, Bool.not_eq_true', hasErrors_of_ofBytes? said]

end Said

end Validation

end Blockwright
