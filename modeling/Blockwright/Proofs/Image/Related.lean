import Mathlib.Order.Defs.Unbundled
import Blockwright.Proofs.Image.Sides

/-!
# Images related pixel by pixel

A change of single pixels relates an image to the image it was made from, place by place. What each
step of a run does to a pixel, the whole run does.
-/

namespace Blockwright

namespace Image

/-- Whether images have the same sides and the pixels of one are related to those of the other in
the same places. -/
structure Related (related : Pixel → Pixel → Prop) (image other : Image) : Prop
    extends SameSides image other where
  each : ∀ (index : Nat) (pixel before : Pixel), image.pixels[index]? = some pixel →
    other.pixels[index]? = some before → related pixel before

namespace Related

variable {related : Pixel → Pixel → Prop} {image other last : Image}

theorem refl [Std.Refl related] (image : Image) : Related related image image where
  toSameSides := .refl image
  each _ _ _ found same := Option.some_inj.1 (found.symm.trans same) ▸ refl_of related _

/-- A pixel of an image is related to one of the other image. -/
theorem exists_before (steps : Related related image other) {index : Nat} {pixel : Pixel}
    (found : image.pixels[index]? = some pixel) :
    ∃ before, other.pixels[index]? = some before ∧ related pixel before := by
  obtain ⟨inside, -⟩ := Array.getElem?_eq_some_iff.1 found
  rw [steps.size] at inside
  have isBefore := Array.getElem?_eq_getElem inside
  exact ⟨_, isBefore, steps.each index pixel _ found isBefore⟩

theorem trans [IsTrans Pixel related] (first : Related related image other)
    (second : Related related other last) : Related related image last where
  toSameSides := first.toSameSides.trans second.toSameSides
  each index pixel before found isBefore := by
    obtain ⟨middle, isMiddle, step⟩ := first.exists_before found
    exact trans_of related step (second.each index middle before isMiddle isBefore)

/-- What relates every pixel to its change relates an image to its change. -/
theorem map {change : Pixel → Pixel} (changes : ∀ pixel, related (change pixel) pixel)
    (image : Image) : Related related (image.map change) image where
  width := rfl
  height := rfl
  size := Array.size_map
  each index pixel before found isBefore := by
    rw [Image.map, Array.getElem?_map, isBefore] at found
    obtain rfl := Option.some_inj.1 found
    exact changes before

theorem modify [Std.Refl related] {change : Pixel → Pixel}
    (changes : ∀ pixel, related (change pixel) pixel) (image : Image) (x y : Int) :
    Related related (image.modify x y change) image where
  toSameSides := image.sameSides_modify x y change
  each index pixel before found isBefore := by
    rw [Image.modify] at found
    split at found
    · rw [Array.getElem?_modify, isBefore] at found
      split at found
      · obtain rfl := Option.some_inj.1 found
        exact changes before
      · obtain rfl := Option.some_inj.1 found
        exact refl_of related before
    · exact Option.some_inj.1 (found.symm.trans isBefore) ▸ refl_of related pixel

/-- A run of steps relates its end to its start if every step does. -/
theorem foldl [Std.Refl related] [IsTrans Pixel related] {α : Type} {step : Image → α → Image}
    (each : ∀ image next, Related related (step image next) image) (steps : List α)
    (image : Image) : Related related (steps.foldl step image) image := by
  induction steps generalizing image with
  | nil => exact .refl image
  | cons next rest ih => exact (ih (step image next)).trans (each image next)

end Related

end Image

end Blockwright
