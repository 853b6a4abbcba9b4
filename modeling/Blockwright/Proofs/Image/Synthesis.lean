import Blockwright.Proofs.Appearance.Profile
import Blockwright.Proofs.Image.Related
import Blockwright.Proofs.Image.Strict

/-!
# Synthesized textures

A synthesized texture is solid everywhere and shows at least two pixels, whatever its motifs make
of the noise. Motifs count by what they are, not by their order.
-/

namespace Blockwright

/-! ## Order of motifs -/

namespace Motif

variable {motifs others : List Motif}

theorem sort_eq_of_perm (same : motifs.Perm others) : sort motifs = sort others := by
  refine List.Perm.eq_of_pairwise (fun first second _ _ below above => ?_) (sorted_sort motifs)
    (sorted_sort others) ((sort_perm motifs).trans (same.trans (sort_perm others).symm))
  exact rank_injective (Nat.le_antisymm below above)

end Motif

namespace Profile

theorem amplitude_eq (profile : Profile) :
    profile.amplitude =
      if profile.motifs = [] then 12
      else profile.motifs.foldl (fun most motif => max most motif.amplitude) 0 := by
  rw [amplitude]
  split
  · next none => rw [if_pos none]
  · next first rest some =>
    rw [if_neg (by rw [some]; exact List.cons_ne_nil _ _), some, List.foldl_cons, Nat.zero_max]

theorem amplitude_eq_of_perm {motifs : List Motif} (profile : Profile)
    (same : motifs.Perm profile.motifs) :
    { profile with motifs }.amplitude = profile.amplitude := by
  have commutes : RightCommutative fun (most : Nat) (motif : Motif) => max most motif.amplitude :=
    ⟨fun most first second => Nat.max_right_comm most first.amplitude second.amplitude⟩
  have empty : motifs = [] ↔ profile.motifs = [] := by
    rw [← List.length_eq_zero_iff, same.length_eq, List.length_eq_zero_iff]
  simp only [amplitude_eq, empty, same.foldl_eq]

end Profile

namespace Image

variable {image : Image} {width height : UInt32}

theorem synthesize?_eq_of_perm {motifs : List Motif} (seed : String) {profile : Profile}
    (same : motifs.Perm profile.motifs) (hint : Option Color) (width height : UInt32) :
    synthesize? seed { profile with motifs } hint width height =
      synthesize? seed profile hint width height := by
  simp only [synthesize?, profile.amplitude_eq_of_perm same, Motif.sort_eq_of_perm same]

/-! ## Solid pixels -/

/-- Whether all pixels of an image have full opacity. -/
def Solid (image : Image) : Prop := ∀ pixel ∈ image.pixels, pixel.alpha = 255

/-- Whether two pixels have the same opacity. -/
def SameAlpha (pixel other : Pixel) : Prop := pixel.alpha = other.alpha

instance : Std.Refl SameAlpha := ⟨fun _ => rfl⟩

instance : IsTrans Pixel SameAlpha := ⟨fun _ _ _ => Eq.trans⟩

theorem Solid.of_related (solid : image.Solid) {after : Image}
    (related : Related SameAlpha after image) : after.Solid := by
  intro pixel isPixel
  obtain ⟨index, found⟩ := Array.mem_iff_getElem?.1 isPixel
  obtain ⟨before, isBefore, same⟩ := related.exists_before found
  exact Eq.trans same (solid before (Array.mem_of_getElem? isBefore))

theorem solid_noise (seed : String) (base : Color) (amplitude : Nat) (width height : UInt32) :
    (noise seed base amplitude width height).Solid := by
  intro pixel isPixel
  obtain ⟨index, -, rfl⟩ := Array.mem_ofFn.1 isPixel
  rfl

theorem related_stroke (image : Image) (stroke : Stroke) :
    Related SameAlpha (image.stroke stroke) image :=
  have keeps : ∀ pixel : Pixel, SameAlpha (pixel.shade stroke.amount) pixel := fun _ => rfl
  .modify keeps image stroke.x stroke.y

theorem related_stamp (seed : String) (image : Image) (motif : Motif) :
    Related SameAlpha (image.stamp seed motif) image :=
  .foldl related_stroke _ image

theorem related_ensureVaried (image : Image) : Related SameAlpha image.ensureVaried image := by
  rw [ensureVaried]
  split
  · exact related_stroke image _
  · exact .refl image

theorem solid_synthesize (seed : String) (profile : Profile) (hint : Option Color)
    (width height : UInt32) : (synthesize seed profile hint width height).Solid :=
  (solid_noise seed _ profile.amplitude width height).of_related
    ((related_ensureVaried _).trans
      (.foldl (related_stamp seed) _ _))

/-! ## Different pixels -/

/-- Whether an image has two different pixels. -/
def Varied (image : Image) : Prop :=
  ∃ pixel ∈ image.pixels, ∃ other ∈ image.pixels, pixel ≠ other

theorem toNat_shadeChannel (amount : Int) (channel : UInt8) :
    (Color.shadeChannel amount channel).toNat =
      (max 0 (min 255 (channel.toNat + amount))).toNat := by
  rw [Color.shadeChannel, UInt8.toNat_ofNat', Nat.mod_eq_of_lt (by omega)]

theorem shade_ne (pixel : Pixel) : pixel.shade (if 127 < pixel.red then -40 else 40) ≠ pixel := by
  intro same
  have unchanged := congrArg (fun pixel => pixel.red.toNat) same
  change (Color.shadeChannel _ pixel.red).toNat = pixel.red.toNat at unchanged
  rw [toNat_shadeChannel] at unchanged
  have bound := pixel.red.toNat_lt
  split at unchanged
  · next bright =>
    have high : 127 < pixel.red.toNat := UInt8.lt_iff_toNat_lt.1 bright
    omega
  · next dark =>
    have low : ¬127 < pixel.red.toNat := fun high => dark (UInt8.lt_iff_toNat_lt.2 high)
    omega

theorem varied_of_getElem? {first second : Pixel} (index other : Nat)
    (isFirst : image.pixels[index]? = some first) (isSecond : image.pixels[other]? = some second)
    (different : first ≠ second) : image.Varied :=
  ⟨first, Array.mem_of_getElem? isFirst, second, Array.mem_of_getElem? isSecond, different⟩

/-- The stroke on the first pixel leaves the second one as it is, and nothing else is needed to make
an image varied. -/
theorem Sized.varied_ensureVaried (sized : image.Sized)
    (several : 2 ≤ area image.width image.height) : image.ensureVaried.Varied := by
  have wide : 0 < image.width.toNat := Nat.pos_of_mul_pos_right (Nat.zero_lt_of_lt several)
  have high : 0 < image.height.toNat := Nat.pos_of_mul_pos_left (Nat.zero_lt_of_lt several)
  have first : image.pixels[0]? = some (image.get 0 0) := by
    simpa using sized.getElem?_position wide high
  rw [← sized] at several
  rw [ensureVaried]
  split
  · next alike =>
    have second : image.pixels[1]? = some (image.get 0 0) := by
      rw [Array.getElem?_eq_getElem several]
      exact congrArg some (eq_of_beq (Array.all_eq_true.1 alike 1 several))
    rw [stroke, Image.modify, if_pos (by dsimp only; omega)]
    refine varied_of_getElem? 0 1 ?_ ?_ (shade_ne (image.get 0 0))
    · simp [Array.getElem?_modify, first]
    · simp [Array.getElem?_modify, second]
  · next unlike =>
    rw [Array.all_eq_true_iff_forall_mem] at unlike
    obtain ⟨other, isOther, different⟩ : ∃ other ∈ image.pixels, other ≠ image.get 0 0 := by
      simpa only [not_forall, exists_prop, beq_iff_eq] using unlike
    exact ⟨other, isOther, _, Array.mem_of_getElem? first, different⟩

/-! ## Textures -/

/-- Whether an image has the sides of a texture, four bytes for each position, full opacity
everywhere and two different pixels. -/
structure IsTexture (width height : UInt32) (image : Image) : Prop where
  isWidth : image.width = width
  isHeight : image.height = height
  length : image.bytes.length = 4 * area width height
  solid : image.Solid
  varied : image.Varied

theorem isTexture_synthesize (seed : String) (profile : Profile) (hint : Option Color)
    (several : 2 ≤ area width height) :
    (synthesize seed profile hint width height).IsTexture width height := by
  let plain := noise seed (hint.getD profile.material.baseColor) profile.amplitude width height
  let stamped := (Motif.sort profile.motifs).foldl (stamp seed) plain
  have same : stamped.SameSides plain := .foldl (sameSides_stamp seed) _ _
  have sized : stamped.Sized := same.sized (sized_ofFn width height _)
  obtain ⟨isWidth, isHeight, isSized⟩ := synthesize_sides seed profile hint width height
  exact {
    isWidth
    isHeight
    length := by rw [isSized.length_bytes, isWidth, isHeight]
    solid := solid_synthesize seed profile hint width height
    varied := sized.varied_ensureVaried (by rwa [same.width, same.height]) }

/-- Wherever there are several pixels whose bytes can be held, no pixel behind the bytes is looked
for and no number is divided by zero, and the result is a texture. Where the bytes cannot be held
there is none. In either case the order of the motifs does not matter. -/
theorem synthesize_isTexture (seed : String) (profile : Profile) (hint : Option Color)
    (width height : UInt32) (several : 2 ≤ area width height) :
    synthesize? seed profile hint width height =
        (if 4 * area width height < capacity then
          some (synthesize seed profile hint width height)
        else none) ∧
      (synthesize seed profile hint width height).IsTexture width height ∧
      ∀ motifs : List Motif, motifs.Perm profile.motifs →
        synthesize? seed { profile with motifs } hint width height =
          synthesize? seed profile hint width height := by
  have wide : width.toNat ≠ 0 := (Nat.pos_of_mul_pos_right (Nat.zero_lt_of_lt several)).ne'
  have high : height.toNat ≠ 0 := (Nat.pos_of_mul_pos_left (Nat.zero_lt_of_lt several)).ne'
  exact ⟨synthesize?_eq wide high seed profile hint,
    isTexture_synthesize seed profile hint several,
    fun _ same => synthesize?_eq_of_perm seed same hint width height⟩

/-- The profile of a black texture with a motif stated twice. -/
def soot : Profile :=
  { hint := "soot"
    material := .stone
    traits := [.soft]
    styles := [.matte]
    motifs := [.flakes, .strata, .flakes] }

/-- Two pixels of soot are told apart, in whichever order the motifs are stated. More soot than can
be held is not made. -/
theorem synthesize_isTexture_soot :
    let black : Option Color := some { red := 0, green := 0, blue := 0 }
    (synthesize? "soot" soot black 2 1 = some (synthesize "soot" soot black 2 1) ∧
        (synthesize "soot" soot black 2 1).IsTexture 2 1 ∧
        synthesize? "soot" { soot with motifs := [.strata, .flakes, .flakes] } black 2 1 =
          synthesize? "soot" soot black 2 1) ∧
      synthesize? "soot" soot none 2147483648 2147483648 = none := by
  obtain ⟨small, isTexture, orders⟩ := synthesize_isTexture "soot" soot
    (some { red := 0, green := 0, blue := 0 }) 2 1 (by decide)
  obtain ⟨large, -⟩ :=
    synthesize_isTexture "soot" soot none 2147483648 2147483648 (by decide)
  exact ⟨⟨small.trans (if_pos (by decide)), isTexture, orders _ (by decide)⟩,
    large.trans (if_neg (by decide))⟩

end Image

end Blockwright
