import Mathlib.Tactic.Common
import Blockwright.Image.Basic

/-!
# Positions

The positions of an image are numbered row by row. In an image with one pixel per position, every
position has the pixel of its number, and the image is made of these.
-/

namespace Blockwright

namespace Image

/-! ## Numbers of positions -/

section Numbers

variable {width height x y otherX otherY : Nat}

/-- The number of a position, row by row. -/
theorem position_lt (isColumn : x < width) (isRow : y < height) :
    y * width + x < width * height := by
  have rows : (y + 1) * width ≤ height * width := Nat.mul_le_mul_right width isRow
  rw [Nat.succ_mul] at rows
  rw [Nat.mul_comm width]
  omega

theorem position_mod (isColumn : x < width) (y : Nat) : (y * width + x) % width = x := by
  rw [Nat.mul_comm, Nat.mul_add_mod, Nat.mod_eq_of_lt isColumn]

theorem position_div (isColumn : x < width) (y : Nat) : (y * width + x) / width = y := by
  rw [Nat.mul_comm, Nat.mul_add_div (by omega), Nat.div_eq_of_lt isColumn, Nat.add_zero]

/-- Different positions have different numbers. -/
theorem position_inj (isColumn : x < width) (isOther : otherX < width) :
    otherY * width + otherX = y * width + x ↔ otherX = x ∧ otherY = y := by
  constructor
  · intro same
    have columns := congrArg (· % width) same
    have rows := congrArg (· / width) same
    rw [position_mod isOther, position_mod isColumn] at columns
    rw [position_div isOther, position_div isColumn] at rows
    exact ⟨columns, rows⟩
  · rintro ⟨rfl, rfl⟩
    rfl

/-- A position that comes sooner has a smaller number. -/
theorem position_lt_position (isColumn : otherX < width)
    (sooner : otherY < y ∨ otherY = y ∧ otherX < x) :
    otherY * width + otherX < y * width + x := by
  rcases sooner with above | ⟨rfl, left⟩
  · have rows : (otherY + 1) * width ≤ y * width := Nat.mul_le_mul_right width above
    rw [Nat.succ_mul] at rows
    omega
  · omega

end Numbers

/-! ## Pixels of positions -/

section Pixels

variable {image : Image} {x y : Nat}

theorem Sized.getElem?_position (sized : image.Sized) (column : x < image.width.toNat)
    (row : y < image.height.toNat) :
    image.pixels[y * image.width.toNat + x]? = some (image.get x y) := by
  have inside : y * image.width.toNat + x < area image.width image.height := position_lt column row
  rw [← sized] at inside
  rw [get, Array.getD, dif_pos inside]
  exact Array.getElem?_eq_getElem inside

theorem getElem?_ofFn (width height : UInt32) (pixel : Nat → Nat → Pixel) (index : Nat) :
    (ofFn width height pixel).pixels[index]? =
      if index < area width height then
        some (pixel (index % width.toNat) (index / width.toNat))
      else none := by
  rw [ofFn, Array.getElem?_ofFn]
  rfl

end Pixels

end Image

end Blockwright
