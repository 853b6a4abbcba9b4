import Blockwright.Proofs.Build.Distinct
import Blockwright.Proofs.Build.Doors
import Blockwright.Proofs.Image.Related

/-!
# Silhouettes of textures

Theming changes colors where something is seen and nothing else, however often a texture is tried.
A rendered texture therefore has the silhouette of the image that it is made from.
-/

namespace Blockwright

/-! ## Themed textures -/

/-- Whether a pixel has the opacity of another, and is the same if that is clear. -/
structure Pixel.Outlines (pixel before : Pixel) : Prop where
  alpha : pixel.alpha = before.alpha
  clear : before.alpha = 0 → pixel = before

namespace Pixel

variable {pixel middle before : Pixel}

theorem Outlines.refl (pixel : Pixel) : pixel.Outlines pixel := ⟨rfl, fun _ => rfl⟩

theorem Outlines.trans (first : pixel.Outlines middle) (second : middle.Outlines before) :
    pixel.Outlines before where
  alpha := first.alpha.trans second.alpha
  clear isClear := (first.clear (second.alpha.trans isClear)).trans (second.clear isClear)

instance : Std.Refl Outlines := ⟨.refl⟩

instance : IsTrans Pixel Outlines := ⟨fun _ _ _ => .trans⟩

theorem outlines_of_visible (alpha : pixel.alpha = before.alpha) :
    (if before.isVisible then pixel else before).Outlines before := by
  split
  · next visible => exact ⟨alpha, fun isClear => absurd isClear (isVisible_iff.1 visible)⟩
  · exact .refl before

theorem outlines_recolor (hue strength : Float32) (pixel : Pixel) :
    (pixel.recolor hue strength).Outlines pixel := by
  rw [recolor]
  exact outlines_of_visible rfl

theorem outlines_nudge (amount : UInt8) (pixel : Pixel) : (pixel.nudge amount).Outlines pixel := by
  rw [nudge]
  exact outlines_of_visible rfl

end Pixel

namespace Image

/-- Whether an image has the sides and the opacities of another one, and the same clear pixels. -/
def Outlines (image before : Image) : Prop := Related Pixel.Outlines image before

theorem outlines_recolor (image : Image) (hue strength : Float32) :
    (image.recolor hue strength).Outlines image :=
  .map (Pixel.outlines_recolor hue _) image

theorem outlines_vary (image : Image) (key : String) : (image.vary key).Outlines image := by
  rw [vary]
  split
  · exact .foldl (fun image (place : Int × Int) =>
      .modify (Pixel.outlines_nudge _) image place.1 place.2) _ image
  · exact Related.refl image

end Image

namespace Theme

theorem outlines_candidate (settings : ThemeSettings) (source : Image) (hue : Float32)
    (owner : String) (attempt : Nat) :
    (candidate settings source hue owner attempt).Outlines source :=
  Image.Related.trans (Image.outlines_vary _ _) (source.outlines_recolor _ _)

theorem outlines_themed {settings : ThemeSettings} {source : Image} {hue : Float32} {owner : String}
    {gallery after : Gallery} {themed : Themed}
    (made : themed? settings source hue owner gallery = some (themed, after)) :
    themed.image.Outlines source := by
  obtain ⟨isCandidate, -⟩ := (search?_eq_some.1 made).image_eq
  rw [isCandidate]
  exact outlines_candidate settings source hue owner themed.attempts

end Theme

/-! ## Rendered textures -/

/-- Whether what is made of a file has the silhouette of what it is made from: a finished file
stays, and a placeholder gets the themed image of part of an asset or of a synthesized image. -/
structure TreeFile.Outlines (renderer : Renderer) (file done : TreeFile) : Prop where
  path : done.path = file.path
  kept : file.bytes?.isSome = true → done = file
  drawn : file.bytes? = none → ∃ task found origin image themed, file.task = some task ∧
    Origin.image renderer.compress renderer.source found file.path task = .ok (origin, image) ∧
    (Origin.IsPart renderer.compress renderer.source task.role image ∨
      Origin.synthesize task = .ok image) ∧
    themed.Outlines image ∧ done.HoldsImage renderer.compress themed

namespace Renderer

variable {μ : Type} [BlockMemory μ] {renderer : Renderer}

theorem outlines_of_file {file done : TreeFile} {run after : Run μ}
    (rendered : renderer.file file run = (.ok done, after)) : file.Outlines renderer done := by
  rcases file_cases rendered with ⟨finished, rfl, -⟩ | ⟨none, task, bytes, isTask, made, rfl⟩
  · exact ⟨rfl, fun _ => rfl, fun none => by rw [none] at finished; cases finished⟩
  · obtain ⟨found, origin, image, themed, warnings, isImage, isThemed, finished⟩ :=
      texture_cases made
    have portrays : TreeFile.Portrays renderer { file with contents := .binary bytes } themed :=
      ⟨bytes, warnings, rfl, finished⟩
    exact {
      path := rfl
      kept := fun some => by rw [none] at some; cases some
      drawn := fun _ => ⟨task, found, origin, image, themed.image, isTask, isImage,
        Origin.image_cases isImage, Theme.outlines_themed isThemed, portrays.holdsImage⟩ }

theorem outlines_of_render {batch done : List TreeFile} {run after : Run μ}
    (rendered : renderer.render batch run = (.ok done, after)) :
    List.Forall₂ (TreeFile.Outlines renderer) batch done := by
  obtain ⟨last, filesOk, -⟩ := render_cases rendered
  exact forall₂_of_files (fun _ _ _ _ _ => outlines_of_file) filesOk

omit [BlockMemory μ] in
/-- Theming keeps silhouettes, for every setting and after every other texture, and so does
rendering. A texture is themed if its sides are shorter than `2 ^ 30` and the counters have room for
its retries. -/
theorem silhouettes_kept :
    (∀ (settings : ThemeSettings) (source : Image) (hue : Float32) (owner : String)
      (gallery after : Gallery) (themed : Themed),
      Theme.themed? settings source hue owner gallery = some (themed, after) →
        themed.image.Outlines source) ∧
    (∀ (settings : ThemeSettings) (source : Image) (hue : Float32) (owner : String)
      (gallery : Gallery), source.width.toNat < 2 ^ 30 → source.height.toNat < 2 ^ 30 →
      gallery.collisions.toNat + (settings.retryCap.toNat + 1) < UInt32.size →
      gallery.exhausted.toNat + 1 < UInt32.size →
        ∃ themed after, Theme.themed? settings source hue owner gallery = some (themed, after)) ∧
    ∀ (renderer : Renderer) (batch done : List TreeFile) (run after : Run Memo),
      renderer.render batch run = (.ok done, after) →
        List.Forall₂ (TreeFile.Outlines renderer) batch done :=
  ⟨fun _ _ _ _ _ _ _ => Theme.outlines_themed,
    fun _ _ _ owner _ narrow low collisions duplicates =>
      Theme.exists_themed ⟨narrow, low⟩ owner collisions duplicates,
    fun _ _ _ _ _ => outlines_of_render⟩

/-- The sprite of a dark item. -/
def darkTask : TextureTask :=
  { owner := { kind := .item, id := "red_door" }
    role := .item
    material := .wood
    profile :=
      { hint := "wood", material := .wood, traits := [.soft], styles := [.matte], motifs := [] }
    archetype := .plain
    color := some ⟨8, 8, 8⟩
    source := .procedural
    template := none
    ending := ""
    hueKey := "red_door"
    location := "ab:item/red_door"
    width := 32
    height := 32 }

/-- The file of the sprite, still to be rendered. -/
def darkItem : TreeFile :=
  { path := "assets/ab/textures/item/red_door.png", contents := .placeholder
    task := some darkTask }

/-- A gap stays clear when it is themed, and a dark item keeps the silhouette of its sprite when it
is rendered. -/
theorem silhouettes_kept_dark :
    (∃ themed after, Theme.themed? {} .gap 90 "a" {} = some (themed, after) ∧
      themed.image.pixels[1]? = some Pixel.clear) ∧
    ∃ done after themed,
      ({ compress := Zlib.encode, source := .empty, settings := {} } : Renderer).render [darkItem]
        (.start : Run Memo) = (.ok [done], after) ∧
      done.HoldsImage Zlib.encode themed ∧ themed.Outlines (.dark "ab:item/red_door" 32 32) := by
  obtain ⟨ofTheme, themes, ofRender⟩ := silhouettes_kept
  constructor
  · obtain ⟨themed, after, made⟩ :=
      themes {} .gap 90 "a" {} (by decide) (by decide) (by decide) (by decide)
    have outlines := ofTheme {} .gap 90 "a" {} after themed made
    have inside : 1 < themed.image.pixels.size := by
      rw [outlines.size]
      decide
    refine ⟨themed, after, made, ?_⟩
    rw [Array.getElem?_eq_getElem inside]
    have isGap : Image.gap.pixels[1]? = some Pixel.clear := by decide
    have related := outlines.each 1 _ _ (Array.getElem?_eq_getElem inside) isGap
    exact congrArg some (related.clear rfl)
  · let renderer : Renderer := { compress := Zlib.encode, source := .empty, settings := {} }
    have finds : renderer.Finds darkItem darkTask (.dark "ab:item/red_door" 32 32) :=
      TextureTask.IsDark.finds (by decide +kernel) rfl rfl rfl fun _ => rfl
    have each : ∀ file ∈ [darkItem], renderer.CanRender Memo file := by
      intro file isFile
      obtain rfl := List.mem_singleton.1 isFile
      exact finds.canRender
    obtain ⟨done, after, rendered⟩ := exists_render each (Run.hasRoom_start (by decide))
    cases ofRender renderer [darkItem] done .start after rendered with
    | cons outlines none =>
      cases none
      obtain ⟨task, found, origin, image, themed, isTask, isImage, -, keeps, holds⟩ :=
        outlines.drawn rfl
      obtain ⟨otherOrigin, made⟩ := finds.made
      cases isTask
      cases (made found).symm.trans isImage
      exact ⟨_, after, themed, rendered, holds, keeps⟩

end Renderer

end Blockwright
