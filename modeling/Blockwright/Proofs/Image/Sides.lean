import Blockwright.Image.Recolor
import Blockwright.Image.Synthesis
import Blockwright.Image.Vary
import Blockwright.Proofs.Image.Positions

/-!
# Sides of images

Shading, recoloring and nudging pixels leaves the sides of an image alone, and a synthesized image
has the sides that it is asked for.
-/

namespace Blockwright

namespace Image

variable {image other last : Image}

/-- Whether images agree in their sides and in their number of pixels. -/
structure SameSides (image other : Image) : Prop where
  width : image.width = other.width
  height : image.height = other.height
  size : image.pixels.size = other.pixels.size

namespace SameSides

theorem refl (image : Image) : image.SameSides image := ⟨rfl, rfl, rfl⟩

theorem trans (first : image.SameSides other) (second : other.SameSides last) :
    image.SameSides last :=
  ⟨first.width.trans second.width, first.height.trans second.height, first.size.trans second.size⟩

theorem sized (same : image.SameSides other) (sized : other.Sized) : image.Sized := by
  rw [Sized, same.size, same.width, same.height]
  exact sized

/-- Steps that leave the sides alone can be repeated. -/
theorem foldl {α : Type} {step : Image → α → Image}
    (each : ∀ image next, (step image next).SameSides image) (steps : List α) (image : Image) :
    (steps.foldl step image).SameSides image := by
  induction steps generalizing image with
  | nil => exact .refl image
  | cons next rest ih => exact (ih (step image next)).trans (each image next)

end SameSides

/-- Images with the same sides and the same pixels are the same. -/
theorem ext_getElem? (same : image.SameSides other)
    (pixels : ∀ index : Nat, image.pixels[index]? = other.pixels[index]?) : image = other := by
  obtain ⟨width, height, array⟩ := image
  obtain ⟨otherWidth, otherHeight, otherArray⟩ := other
  obtain ⟨rfl, rfl, -⟩ := same
  obtain rfl : array = otherArray := Array.ext_getElem? pixels
  rfl

theorem sameSides_modify (image : Image) (x y : Int) (change : Pixel → Pixel) :
    (image.modify x y change).SameSides image :=
  ⟨image.width_modify x y change, image.height_modify x y change, image.size_modify x y change⟩

theorem sameSides_recolor (image : Image) (hue strength : Float32) :
    (image.recolor hue strength).SameSides image :=
  ⟨rfl, rfl, Array.size_map⟩

theorem sameSides_vary (image : Image) (key : String) : (image.vary key).SameSides image := by
  rw [vary]
  split
  · exact .foldl (fun image (place : Int × Int) => image.sameSides_modify place.1 place.2 _) _ image
  · exact .refl image

theorem sameSides_stamp (seed : String) (image : Image) (motif : Motif) :
    (image.stamp seed motif).SameSides image :=
  .foldl (fun image (stroke : Stroke) => image.sameSides_modify stroke.x stroke.y _) _ image

theorem sameSides_ensureVaried (image : Image) : image.ensureVaried.SameSides image := by
  rw [ensureVaried]
  split
  · exact image.sameSides_modify _ _ _
  · exact .refl image

/-- A synthesized image has the sides that it is asked for, and one pixel per position. -/
theorem synthesize_sides (seed : String) (profile : Profile) (hint : Option Color)
    (width height : UInt32) :
    let image := synthesize seed profile hint width height
    image.width = width ∧ image.height = height ∧ image.Sized := by
  let plain := noise seed (hint.getD profile.material.baseColor) profile.amplitude width height
  have same : (synthesize seed profile hint width height).SameSides plain :=
    (sameSides_ensureVaried _).trans (.foldl (sameSides_stamp seed) _ _)
  exact ⟨same.width, same.height, same.sized (sized_ofFn width height _)⟩

end Image

end Blockwright
