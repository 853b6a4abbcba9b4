import Blockwright.Proofs.Image.Vary
import Blockwright.Theme.Gallery

/-!
# Pixels of themed images

A pixel keeps its opacity when it is themed. It is recolored and then nudged at most once, by at
most eight steps in each channel, so that pixels which are far apart stay different.
-/

namespace Blockwright

/-! ## Nudged pixels -/

namespace Pixel

/-- Whether a channel is at most eight steps from another. -/
def NearChannel (channel other : UInt8) : Prop :=
  channel.toNat ≤ other.toNat + 8 ∧ other.toNat ≤ channel.toNat + 8

/-- Whether a pixel has the opacity of another and nearly its color. -/
structure Near (pixel other : Pixel) : Prop where
  red : NearChannel pixel.red other.red
  green : NearChannel pixel.green other.green
  blue : NearChannel pixel.blue other.blue
  alpha : pixel.alpha = other.alpha

/-- Whether two pixels differ in opacity, or in red by more than two nudges. -/
def Contrasts (pixel other : Pixel) : Prop :=
  pixel.alpha ≠ other.alpha ∨ other.red.toNat + 16 < pixel.red.toNat

variable {first second pixel other : Pixel}

theorem NearChannel.refl (channel : UInt8) : NearChannel channel channel :=
  ⟨by omega, by omega⟩

theorem Near.refl (pixel : Pixel) : pixel.Near pixel :=
  ⟨.refl _, .refl _, .refl _, rfl⟩

/-- Pixels near to contrasting ones are different. -/
theorem Contrasts.ne_of_near (contrasts : first.Contrasts second) (ofFirst : pixel.Near first)
    (ofSecond : other.Near second) : pixel ≠ other := by
  rintro rfl
  rcases contrasts with unlike | far
  · exact unlike (ofFirst.alpha.symm.trans ofSecond.alpha)
  · have above := ofFirst.red.2
    have below := ofSecond.red.1
    omega

theorem nearChannel_nudgeChannel {amount : UInt8} (little : amount.toNat ≤ 8) (channel : UInt8) :
    NearChannel (nudgeChannel amount channel) channel := by
  have moved := movedChannel_nudgeChannel little channel
  rw [MovedChannel] at moved
  rw [NearChannel]
  split at moved <;> omega

theorem near_nudge {amount : UInt8} (little : amount.toNat ≤ 8) (pixel : Pixel) :
    (pixel.nudge amount).Near pixel := by
  rw [nudge]
  split
  · exact ⟨nearChannel_nudgeChannel little _, nearChannel_nudgeChannel little _,
      nearChannel_nudgeChannel little _, rfl⟩
  · exact .refl pixel

@[simp]
theorem alpha_recolor (hue strength : Float32) (pixel : Pixel) :
    (pixel.recolor hue strength).alpha = pixel.alpha := by
  rw [recolor]
  split <;> rfl

end Pixel

namespace Image

/-! ## Changed places -/

variable {image : Image} {change : Pixel → Pixel}

/-- The place of the pixel with an index. -/
def placeOf (image : Image) (index : Nat) : Int × Int :=
  ((index % image.width.toNat : Nat), (index / image.width.toNat : Nat))

theorem getElem?_modify (image : Image) (x y : Int) (change : Pixel → Pixel) (index : Nat) :
    (image.modify x y change).pixels[index]? = image.pixels[index]? ∨
      (x, y) = image.placeOf index ∧
        (image.modify x y change).pixels[index]? = image.pixels[index]?.map change := by
  rw [modify]
  split
  · next inside =>
    obtain ⟨left, top, right, -⟩ := inside
    rw [Array.getElem?_modify]
    split
    · next here =>
      refine .inr ⟨?_, rfl⟩
      lift x to Nat using left
      lift y to Nat using top
      have within : x < image.width.toNat := by exact_mod_cast right
      rw [← here, placeOf, Int.toNat_natCast, Int.toNat_natCast, position_mod within,
        position_div within]
    · exact .inl rfl
  · exact .inl rfl

theorem getElem?_foldl_modify {places : List (Int × Int)} (different : places.Nodup)
    (image : Image) (change : Pixel → Pixel) (index : Nat) :
    let changed := places.foldl (fun result place => result.modify place.1 place.2 change) image
    changed.pixels[index]? = image.pixels[index]? ∨
      image.placeOf index ∈ places ∧
        changed.pixels[index]? = image.pixels[index]?.map change := by
  induction places generalizing image with
  | nil => exact .inl rfl
  | cons place rest ih =>
    obtain ⟨x, y⟩ := place
    obtain ⟨fresh, others⟩ := List.nodup_cons.1 different
    have samePlace : (image.modify x y change).placeOf index = image.placeOf index := by
      rw [placeOf, width_modify, placeOf]
    have later := ih others (image.modify x y change)
    rw [samePlace] at later
    rw [List.foldl_cons]
    rcases image.getElem?_modify x y change index with kept | ⟨here, changed⟩
    · rw [kept] at later
      exact later.imp id fun ⟨isPlace, changed⟩ => ⟨List.mem_cons_of_mem _ isPlace, changed⟩
    · -- the place is no other one, so that the pixel stays from here on
      rcases later with kept | ⟨isPlace, -⟩
      · exact .inr ⟨here ▸ List.mem_cons_self, kept.trans changed⟩
      · exact absurd (here ▸ isPlace) fresh

theorem getElem?_vary (image : Image) (key : String) (index : Nat) :
    (image.vary key).pixels[index]? = image.pixels[index]? ∨
      (image.vary key).pixels[index]? =
        image.pixels[index]?.map (Pixel.nudge (nudgeAmount (Fnv.hash key))) := by
  rw [vary]
  split
  · exact (getElem?_foldl_modify (nodup_around _ _) image _ index).imp id And.right
  · exact .inl rfl

end Image

/-! ## Themed pixels -/

namespace Theme

/-- What recoloring makes of a pixel in a try. -/
def tint (settings : ThemeSettings) (hue : Float32) (attempt : Nat) : Pixel → Pixel :=
  Pixel.recolor (hue + settings.hueNudge * single attempt)
    (Single.clamp 0 1 (Single.least (settings.strength + settings.strengthStep * single attempt) 1))

@[simp]
theorem alpha_tint (settings : ThemeSettings) (hue : Float32) (attempt : Nat) (pixel : Pixel) :
    (tint settings hue attempt pixel).alpha = pixel.alpha :=
  Pixel.alpha_recolor _ _ pixel

/-- A pixel that is nearly black is not recolored. -/
theorem tint_of_dark {pixel : Pixel}
    (dark : (Hsv.ofColor pixel.color).value < Recolor.darkest) (settings : ThemeSettings)
    (hue : Float32) (attempt : Nat) : tint settings hue attempt pixel = pixel := by
  rw [tint, Pixel.recolor, Recolor.shift]
  dsimp only
  rw [if_pos dark]
  split <;> rfl

/-- An image that is nearly black is only nudged. -/
theorem candidate_of_dark {source : Image}
    (dark : ∀ pixel ∈ source.pixels, (Hsv.ofColor pixel.color).value < Recolor.darkest)
    (settings : ThemeSettings) (hue : Float32) (owner : String) (attempt : Nat) :
    candidate settings source hue owner attempt = source.vary (key owner attempt) := by
  have kept : source.recolor (hue + settings.hueNudge * single attempt)
      (Single.least (settings.strength + settings.strengthStep * single attempt) 1) = source := by
    rw [Image.recolor, Image.map]
    congr 1
    exact (Array.map_congr_left fun pixel isPixel =>
      tint_of_dark (dark pixel isPixel) settings hue attempt).trans (Array.map_id _)
  rw [candidate]
  exact congrArg (·.vary (key owner attempt)) kept

/-- Every recolored pixel is near to one of the try. -/
theorem exists_near (settings : ThemeSettings) {source : Image} (hue : Float32) (owner : String)
    (attempt : Nat) {pixel : Pixel} (isPixel : pixel ∈ source.pixels) :
    ∃ themed ∈ (candidate settings source hue owner attempt).pixels,
      themed.Near (tint settings hue attempt pixel) := by
  obtain ⟨index, found⟩ := Array.mem_iff_getElem?.1 isPixel
  rw [candidate]
  generalize recolors : source.recolor _ _ = recolored
  have tinted : recolored.pixels[index]? = some (tint settings hue attempt pixel) := by
    rw [← recolors, Image.recolor, Image.map, Array.getElem?_map, found]
    rfl
  rcases recolored.getElem?_vary (key owner attempt) index with kept | nudged
  · exact ⟨_, Array.mem_of_getElem? (kept.trans tinted), .refl _⟩
  · rw [tinted] at nudged
    exact ⟨_, Array.mem_of_getElem? nudged, Pixel.near_nudge (Image.nudgeAmount_le _) _⟩

end Theme

end Blockwright
