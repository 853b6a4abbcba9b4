import Blockwright.Proofs.Gate.Opened
import Blockwright.Proofs.Image.Frames
import Blockwright.Proofs.Png.RoundTrip
import Blockwright.Proofs.Rendering.History

/-!
# Distinct textures

A texture that is said to be unique is unlike all textures that were themed before it, whether or
not these were unique. If a build accepted no duplicate, all its textures are unlike each other.
-/

namespace Blockwright

/-- Whether a file holds an image, which is read from it if compression keeps images of its size. -/
def TreeFile.HoldsImage (compress : List UInt8 → List UInt8) (file : TreeFile) (image : Image) :
    Prop :=
  ∃ bytes, file.bytes? = some bytes ∧ Png.encodeImageWith compress image = .ok (Bytes.list bytes) ∧
    (Png.Keeps compress image.width image.height → Png.decodeImage (Bytes.list bytes) = .ok image)

theorem TreeFile.Portrays.holdsImage {renderer : Renderer} {file : TreeFile} {themed : Themed}
    (portrays : file.Portrays renderer themed) :
    file.HoldsImage renderer.compress themed.image := by
  obtain ⟨bytes, warnings, holds, finished⟩ := portrays
  obtain ⟨encoded, -⟩ := Renderer.finish_cases finished
  refine ⟨bytes, by rw [bytes?, holds], encoded, fun keeps => ?_⟩
  obtain ⟨-, -, length, -⟩ := Png.encodeWith_eq_ok.1 encoded
  exact Png.decodeImage_of_encodeImageWith keeps.undone encoded (keeps.fits _ length)

namespace Build

variable {compress : List UInt8 → List UInt8} {spec : Specification} {settings : Settings}
  {source : AssetSource} {build : Build}

/-- The textures of a build are the themed images of calls for its placeholders, and the tally
counts those that are not unique. -/
theorem textures_history {plan : Plan} (planned : Plan.ofSpecification spec settings = .ok plan)
    (built : ofSpecification compress spec settings source = .ok build) :
    ∃ (calls : List Theme.Call) (results : List Themed) (gallery : Gallery),
      List.Forall₂ (TreeFile.Calls (renderer compress settings source))
        (plan.files.filter TreeFile.isTexture) calls ∧
      Theme.themedAll? calls {} = some (results, gallery) ∧
      List.Forall₂ (TreeFile.Portrays (renderer compress settings source))
        (build.files.filter TreeFile.isTexture) results ∧
      build.manifest.tally.exhausted = gallery.exhausted := by
  obtain ⟨_, run, plannedToo, rendered, -, -, tally⟩ := ofSpecification_cases built
  obtain rfl := Except.ok.inj (planned.symm.trans plannedToo)
  obtain ⟨last, filesOk, settled⟩ := Renderer.render_cases rendered
  obtain ⟨calls, results, called, themed, portrays⟩ :=
    Renderer.files_history (Plan.isPlanned_of_mem planned) filesOk
  exact ⟨calls, results, last.gallery, called, themed, portrays, by rw [tally, settled]⟩

theorem owner_of_calls {renderer : Renderer} {files : List TreeFile} {calls : List Theme.Call}
    (called : List.Forall₂ (TreeFile.Calls renderer) files calls) :
    calls.map Theme.Call.owner = files.map TreeFile.path :=
  Outcome.map_eq_map_of_forall₂ called.flip fun _ _ ofCall => ofCall.owner

theorem apart_of_exhausted {calls : List Theme.Call} {results : List Themed} {gallery : Gallery}
    (different : (calls.map Theme.Call.owner).Nodup)
    (themed : Theme.themedAll? calls {} = some (results, gallery))
    (noDuplicate : gallery.exhausted = 0) :
    results.Pairwise fun first second => first.image.Apart second.image := by
  have counted := Theme.exhausted_themedAll? themed
  have allUnique : ∀ themed ∈ results, themed.unique = true := by
    have none : results.countP (fun themed => !themed.unique) = 0 := by
      rw [noDuplicate, UInt32.toNat_zero] at counted
      omega
    intro themed isThemed
    simpa using List.countP_eq_zero.1 none themed isThemed
  obtain ⟨inOrder, -⟩ :=
    Theme.apart_themedAll? Gallery.remembers_nil (by simpa using different) themed
  exact inOrder.imp_of_mem fun _ isLater apart => apart (allUnique _ isLater)

/-- A unique texture is unlike every texture that was themed before it for another owner, and all
textures of a build without accepted duplicates are unlike each other. -/
theorem distinct_textures :
    (∀ (calls : List Theme.Call) (results : List Themed) (gallery : Gallery),
      (calls.map Theme.Call.owner).Nodup →
      Theme.themedAll? calls {} = some (results, gallery) →
        results.Pairwise fun earlier later => later.unique = true →
          earlier.image.Apart later.image) ∧
    ∀ (compress : List UInt8 → List UInt8) (spec : Specification) (settings : Settings)
      (source : AssetSource) (build : Build),
      ofSpecification compress spec settings source = .ok build →
      build.manifest.tally.exhausted = 0 →
        ∃ images : List Image,
          List.Forall₂ (TreeFile.HoldsImage compress) (build.files.filter TreeFile.isTexture)
            images ∧
          images.Pairwise Image.Apart := by
  constructor
  · intro calls results gallery different themed
    exact (Theme.apart_themedAll? Gallery.remembers_nil (by simpa using different) themed).1
  · intro compress spec settings source build built noDuplicate
    obtain ⟨plan, planned, -⟩ := ofSpecification_eq_ok built
    obtain ⟨calls, results, gallery, called, themed, portrays, counted⟩ :=
      textures_history planned built
    have different : (calls.map Theme.Call.owner).Nodup := by
      rw [owner_of_calls called]
      exact (Plan.nodup_path planned).sublist (List.filter_sublist.map _)
    refine ⟨results.map Themed.image, ?_, ?_⟩
    · rw [List.forall₂_map_right_iff]
      exact portrays.imp fun _ _ portrays => portrays.holdsImage
    · rw [List.pairwise_map]
      exact apart_of_exhausted different themed (counted.symm.trans noDuplicate)

end Build

/-! ## Two spots -/

/-- Sixteen columns and rows that are clear but for two black pixels in the first row. -/
def Image.spot (left : Nat) : Image :=
  .ofFn 16 16 fun x y => if y = 0 ∧ (x = left ∨ x = left + 1) then .solid ⟨0, 0, 0⟩ else .clear

/-- Two items with copied textures. -/
def Specification.spots : Specification :=
  { modId := "ab"
    items := [
      { id := "axe", copies := ["minecraft:item/left"] },
      { id := "hoe", copies := ["minecraft:item/right"] }] }

/-- The assets with the textures of the items. -/
def AssetSource.ofSpots (left right : List UInt8) : AssetSource :=
  .ofTable { entries := [
    ("assets/minecraft/textures/item/left.png", Bytes.ofList left),
    ("assets/minecraft/textures/item/right.png", Bytes.ofList right)] }

/-- Whether a file is finished, or asks for the texture of one of the items. -/
def TreeFile.isOfSpots (file : TreeFile) : Bool :=
  match file.bytes?, file.task with
  | some _, _ => true
  | none, some task =>
    task.role = .item ∧
      (file.path = "assets/ab/textures/item/axe.png" ∧
          task.source = .copies ["minecraft:item/left"] ∨
        file.path = "assets/ab/textures/item/hoe.png" ∧
          task.source = .copies ["minecraft:item/right"])
  | none, none => false

namespace Image

variable {left : Nat}

theorem mem_spot (inside : left < 15) :
    Pixel.solid ⟨0, 0, 0⟩ ∈ (spot left).pixels ∧ Pixel.clear ∈ (spot left).pixels := by
  constructor
  · have isPixel := @mem_ofFn 16 16
      (fun x y => if y = 0 ∧ (x = left ∨ x = left + 1) then .solid ⟨0, 0, 0⟩ else .clear) left 0
      (by decide +revert) (by decide)
    rwa [if_pos ⟨rfl, .inl rfl⟩] at isPixel
  · have isPixel := @mem_ofFn 16 16
      (fun x y => if y = 0 ∧ (x = left ∨ x = left + 1) then .solid ⟨0, 0, 0⟩ else .clear) 0 1
      (by decide) (by decide)
    rwa [if_neg (by omega)] at isPixel

theorem isPresentable_spot (inside : left < 15) : (spot left).IsPresentable := by
  obtain ⟨black, clear⟩ := mem_spot inside
  exact {
    sized := sized_ofFn _ _ _
    wide := UInt32.le_refl 16
    high := UInt32.le_refl 16
    seen := ⟨_, black, rfl⟩
    varied := ⟨_, black, _, clear, by decide⟩ }

theorem dark_spot : ∀ pixel ∈ (spot left).pixels,
    (Hsv.ofColor pixel.color).value < Recolor.darkest := by
  have black : (Hsv.ofColor ⟨0, 0, 0⟩).value < Recolor.darkest := by decide +kernel
  intro pixel isPixel
  obtain ⟨x, y, rfl⟩ := exists_of_mem_ofFn isPixel
  split <;> exact black

end Image

theorem Renderer.finds_spot {renderer : Renderer} (isStored : renderer.compress = Zlib.encode)
    {file : TreeFile} {task : TextureTask} (placeholder : file.bytes? = none)
    (isTask : file.task = some task) (role : task.role = .item) {location asset : String}
    (copies : task.source = .copies [location])
    (isAsset : Location.textureFile (Location.canonical location) = asset) {left : Nat}
    (inside : left < 15) {bytes : List UInt8}
    (encoded : Png.encodeImageWith Zlib.encode (.spot left) = .ok bytes)
    (read : renderer.source.read asset = .ok (some (Bytes.ofList bytes))) :
    renderer.Finds file task (.spot left) := by
  obtain ⟨black, clear⟩ := Image.mem_spot inside
  refine finds_of_copies isStored placeholder isTask copies isAsset encoded read ?_
    (.of_small isStored (Image.isPresentable_spot inside)
      (Theme.keepsContrast_of_alpha black clear (by decide) _ _)
      (show (16 : UInt32) ≤ 64 by decide) (show (16 : UInt32) ≤ 64 by decide))
  rw [role]
  exact Image.firstFrame?_of_not_isStrip fun strip => absurd strip.longer (Nat.lt_irrefl 16)

theorem TreeFile.exists_finds_spot {left right : List UInt8}
    (leftEncoded : Png.encodeImageWith Zlib.encode (.spot 0) = .ok left)
    (rightEncoded : Png.encodeImageWith Zlib.encode (.spot 8) = .ok right) {file : TreeFile}
    (isFile : file.isOfSpots = true) (placeholder : file.bytes? = none) :
    ∃ task, file.path = "assets/ab/textures/item/axe.png" ∧
        (Build.renderer Zlib.encode {} (.ofSpots left right)).Finds file task (.spot 0) ∨
      file.path = "assets/ab/textures/item/hoe.png" ∧
        (Build.renderer Zlib.encode {} (.ofSpots left right)).Finds file task (.spot 8) := by
  have leftAsset : Location.textureFile (Location.canonical "minecraft:item/left") =
      "assets/minecraft/textures/item/left.png" := by decide +kernel
  have rightAsset : Location.textureFile (Location.canonical "minecraft:item/right") =
      "assets/minecraft/textures/item/right.png" := by decide +kernel
  rw [isOfSpots, placeholder] at isFile
  split at isFile
  · next isFinished => cases isFinished
  · next task _ isTask =>
    obtain ⟨role, ⟨path, copies⟩ | ⟨path, copies⟩⟩ := of_decide_eq_true isFile
    · exact ⟨task, .inl ⟨path, Renderer.finds_spot rfl placeholder isTask role copies leftAsset
        (by decide) leftEncoded rfl⟩⟩
    · exact ⟨task, .inr ⟨path, Renderer.finds_spot rfl placeholder isTask role copies rightAsset
        (by decide) rightEncoded rfl⟩⟩
  · cases isFile

theorem Plan.exists_spots :
    ∃ plan, ofSpecification .spots {} = .ok plan ∧ plan.files.length ≤ 1000 ∧
      (∀ file ∈ plan.files, file.isOfSpots = true) ∧
      (plan.files.filter TreeFile.isTexture).map TreeFile.path =
        ["assets/ab/textures/item/axe.png", "assets/ab/textures/item/hoe.png"] := by
  obtain ⟨catalog, expanded, files, unsorted, filed, reordered, few, each, textures⟩ :
      ∃ catalog, Specification.spots.expand = .ok catalog ∧ ∃ files unsorted,
        filesOf catalog {} = .ok files ∧ files.Perm unsorted ∧
        unsorted.length ≤ 1000 ∧ (∀ file ∈ unsorted, file.isOfSpots = true) ∧
        (unsorted.filter TreeFile.isTexture).map TreeFile.path =
          ["assets/ab/textures/item/hoe.png", "assets/ab/textures/item/axe.png"] :=
    ⟨_, rfl, exists_filesOf rfl rfl (by decide +kernel)
      ⟨by decide +kernel, by decide +kernel, by decide +kernel⟩⟩
  have planned : ofSpecification .spots {} = .ok ⟨catalog, files⟩ :=
    ofSpecification_eq_ok.2 ⟨expanded, filed⟩
  have samePaths := (reordered.filter TreeFile.isTexture).map TreeFile.path
  rw [textures] at samePaths
  have inOrder := (pairwise_path planned).sublist
    ((List.filter_sublist (p := TreeFile.isTexture)).map TreeFile.path)
  exact ⟨_, planned, reordered.length_eq ▸ few,
    fun file isFile => each file (reordered.mem_iff.1 isFile),
    (samePaths.trans (.swap _ _ [])).eq_of_pairwise
      (fun _ _ _ _ less greater => absurd greater (String.lt_asymm less))
      inOrder (by decide)⟩

theorem Renderer.Finds.source_of_calls {renderer : Renderer} {file : TreeFile} {task : TextureTask}
    {image : Image} (finds : renderer.Finds file task image) {call : Theme.Call}
    (calls : file.Calls renderer call) : call.source = image := by
  obtain ⟨origin, made⟩ := finds.made
  obtain ⟨other, found, otherOrigin, isOther, otherMade, -⟩ := calls.made
  obtain rfl := Option.some.inj (finds.isTask.symm.trans isOther)
  cases (made found).symm.trans otherMade
  rfl

namespace Theme

/-- Whether a call themes a spot with four retries. -/
structure Call.IsSpot (left : Nat) (owner : String) (call : Call) : Prop where
  source : call.source = .spot left
  owner : call.owner = owner
  retryCap : call.settings.retryCap = 4

theorem Call.IsSpot.themed?_eq {left : Nat} {owner : String} {call : Call}
    (isSpot : call.IsSpot left owner) (gallery : Gallery) :
    themed? call.settings call.source call.hue call.owner gallery =
      search? (fun attempt => (Image.spot left).vary (key owner attempt)) owner 4 0 gallery := by
  have nudged : candidate call.settings (.spot left) call.hue owner =
      fun attempt => (Image.spot left).vary (key owner attempt) := by
    funext attempt
    rw [candidate_of_dark Image.dark_spot]
  rw [themed?, isSpot.source, isSpot.owner, nudged, isSpot.retryCap]
  rfl

theorem exhausted_search?_spots :
    ((search? (fun attempt => (Image.spot 0).vary (key "assets/ab/textures/item/axe.png" attempt))
      "assets/ab/textures/item/axe.png" 4 0 {}).bind fun first =>
        search? (fun attempt =>
            (Image.spot 8).vary (key "assets/ab/textures/item/hoe.png" attempt))
          "assets/ab/textures/item/hoe.png" 4 0 first.2).map (fun last => last.2.exhausted) =
      some 0 := by
  decide +kernel

theorem exhausted_spots {first second : Call}
    (firstSpot : first.IsSpot 0 "assets/ab/textures/item/axe.png")
    (secondSpot : second.IsSpot 8 "assets/ab/textures/item/hoe.png") {results : List Themed}
    {gallery : Gallery} (themed : themedAll? [first, second] {} = some (results, gallery)) :
    (∃ one other, results = [one, other]) ∧ gallery.exhausted = 0 := by
  obtain ⟨one, next, others, isOne, rest, rfl⟩ := themedAll?_cons.1 themed
  obtain ⟨other, last, none, isOther, ends, rfl⟩ := themedAll?_cons.1 rest
  obtain ⟨rfl, rfl⟩ := Prod.mk.inj (Option.some.inj ends)
  rw [firstSpot.themed?_eq] at isOne
  rw [secondSpot.themed?_eq] at isOther
  have evaluated := exhausted_search?_spots
  rw [isOne, Option.bind_some, isOther] at evaluated
  exact ⟨⟨one, other, rfl⟩, Option.some.inj evaluated⟩

end Theme

namespace Build

section Spots

variable {plan : Plan} (planned : Plan.ofSpecification .spots {} = .ok plan)
  (each : ∀ file ∈ plan.files, file.isOfSpots = true) {left right : List UInt8}
  (leftEncoded : Png.encodeImageWith Zlib.encode (.spot 0) = .ok left)
  (rightEncoded : Png.encodeImageWith Zlib.encode (.spot 8) = .ok right)

include each leftEncoded rightEncoded

theorem canRender_spots : ∀ file ∈ plan.files,
    (renderer Zlib.encode {} (.ofSpots left right)).CanRender Memo file := by
  intro file isFile
  by_cases placeholder : file.bytes? = none
  · obtain ⟨task, ⟨-, finds⟩ | ⟨-, finds⟩⟩ :=
      TreeFile.exists_finds_spot leftEncoded rightEncoded (each file isFile) placeholder
    · exact finds.canRender
    · exact finds.canRender
  · exact Renderer.canRender_of_finished (Option.isSome_iff_ne_none.2 placeholder)

include planned

theorem exists_calls_spots
    (textures : (plan.files.filter TreeFile.isTexture).map TreeFile.path =
      ["assets/ab/textures/item/axe.png", "assets/ab/textures/item/hoe.png"])
    {calls : List Theme.Call}
    (called : List.Forall₂ (TreeFile.Calls (renderer Zlib.encode {} (.ofSpots left right)))
      (plan.files.filter TreeFile.isTexture) calls) :
    ∃ first second, calls = [first, second] ∧
      first.IsSpot 0 "assets/ab/textures/item/axe.png" ∧
      second.IsSpot 8 "assets/ab/textures/item/hoe.png" := by
  have found : ∀ file ∈ plan.files.filter TreeFile.isTexture, ∃ task,
      file.path = "assets/ab/textures/item/axe.png" ∧
        (renderer Zlib.encode {} (.ofSpots left right)).Finds file task (.spot 0) ∨
      file.path = "assets/ab/textures/item/hoe.png" ∧
        (renderer Zlib.encode {} (.ofSpots left right)).Finds file task (.spot 8) := by
    intro file isFile
    obtain ⟨isPart, isTexture⟩ := List.mem_filter.1 isFile
    exact TreeFile.exists_finds_spot leftEncoded rightEncoded (each file isPart)
      ((Plan.isPlanned_of_mem planned file isPart).isTexture_iff.1 isTexture)
  obtain ⟨axe, rest, same, axePath, restPaths⟩ := List.map_eq_cons_iff.1 textures
  obtain ⟨hoe, none, rfl, hoePath, nothing⟩ := List.map_eq_cons_iff.1 restPaths
  obtain rfl := List.map_eq_nil_iff.1 nothing
  rw [same] at called found
  obtain _ | @⟨_, first, _, _, ofAxe, _ | @⟨_, second, _, _, ofHoe, _ | _⟩⟩ := called
  refine ⟨first, second, rfl, ⟨?_, ofAxe.owner.trans axePath, ?_⟩,
    ⟨?_, ofHoe.owner.trans hoePath, ?_⟩⟩
  · obtain ⟨task, ⟨-, finds⟩ | ⟨path, -⟩⟩ := found axe (by simp)
    · exact finds.source_of_calls ofAxe
    · exact absurd (axePath.symm.trans path) (by decide)
  · exact congrArg ThemeSettings.retryCap ofAxe.settings
  · obtain ⟨task, ⟨path, -⟩ | ⟨-, finds⟩⟩ := found hoe (by simp)
    · exact absurd (hoePath.symm.trans path) (by decide)
    · exact finds.source_of_calls ofHoe
  · exact congrArg ThemeSettings.retryCap ofHoe.settings

end Spots

theorem exists_spots :
    ∃ source build first second, ofSpecification Zlib.encode .spots {} source = .ok build ∧
      build.files.filter TreeFile.isTexture = [first, second] ∧
      build.manifest.tally.exhausted = 0 := by
  obtain ⟨plan, planned, few, each, textures⟩ := Plan.exists_spots
  obtain ⟨left, -, leftEncoded, -⟩ :=
    (@Image.isPresentable_spot 0 (by decide)).exists_encodeWith
      (Png.keeps_encode (by decide) (by decide)) ""
  obtain ⟨right, -, rightEncoded, -⟩ :=
    (@Image.isPresentable_spot 8 (by decide)).exists_encodeWith
      (Png.keeps_encode (by decide) (by decide)) ""
  obtain ⟨build, built⟩ := exists_ofPlan (canRender_spots each leftEncoded rightEncoded)
    ((Nat.mul_le_mul_right _ few).trans_lt
      (show 1000 * (({} : Settings).theme.retryCap.toNat + 6) < UInt32.size by decide))
  rw [← ofSpecification_eq_ofPlan planned] at built
  obtain ⟨calls, results, gallery, called, themed, portrays, counted⟩ :=
    textures_history planned built
  obtain ⟨first, second, rfl, isFirst, isSecond⟩ :=
    exists_calls_spots planned each leftEncoded rightEncoded textures called
  obtain ⟨⟨one, other, rfl⟩, noDuplicate⟩ := Theme.exhausted_spots isFirst isSecond themed
  obtain ⟨firstFile, rest, -, isRest, same⟩ := List.forall₂_cons_right_iff.1 portrays
  obtain ⟨secondFile, none, -, isNone, rfl⟩ := List.forall₂_cons_right_iff.1 isRest
  obtain rfl := List.forall₂_nil_right_iff.1 isNone
  exact ⟨_, build, firstFile, secondFile, built, same, counted.trans noDuplicate⟩

end Build

namespace Build

/-- Two textures for different owners, and a mod with two textures. -/
theorem distinct_textures_pair :
    (let source : Image := { width := 1, height := 1, pixels := #[⟨10, 15, 20, 255⟩] }
    let calls : List Theme.Call := [
      { settings := {}, source, hue := 0, owner := "bar.png" },
      { settings := {}, source, hue := 0, owner := "ore.png" }]
    ∃ earlier later gallery, Theme.themedAll? calls {} = some ([earlier, later], gallery) ∧
      later.unique = true ∧ earlier.image.Apart later.image) ∧
    ∃ source build first second, ofSpecification Zlib.encode .spots {} source = .ok build ∧
      build.files.filter TreeFile.isTexture = [first, second] ∧
      build.manifest.tally.exhausted = 0 ∧
      ∃ image other, first.HoldsImage Zlib.encode image ∧ second.HoldsImage Zlib.encode other ∧
        image.Apart other := by
  constructor
  · intro source calls
    have evaluated : (Theme.themedAll? calls {}).map (fun made => made.1.map Themed.unique) =
        some [true, true] := by decide +kernel
    obtain ⟨⟨results, gallery⟩, themed, unique⟩ := Option.map_eq_some_iff.1 evaluated
    obtain ⟨earlier, rest, rfl, -, laterUnique⟩ := List.map_eq_cons_iff.1 unique
    obtain ⟨later, none, rfl, isUnique, nothing⟩ := List.map_eq_cons_iff.1 laterUnique
    obtain rfl := List.map_eq_nil_iff.1 nothing
    have apart := distinct_textures.1 calls _ gallery (by simp [calls]) themed
    exact ⟨earlier, later, gallery, themed, isUnique, by simpa [isUnique] using apart⟩
  · obtain ⟨source, build, first, second, built, textures, noDuplicate⟩ := exists_spots
    obtain ⟨images, holds, apart⟩ := distinct_textures.2 _ _ _ _ build built noDuplicate
    rw [textures] at holds
    obtain _ | ⟨firstHolds, _ | ⟨secondHolds, _ | _⟩⟩ := holds
    exact ⟨source, build, first, second, built, textures, noDuplicate, _, _, firstHolds,
      secondHolds, by simpa using apart⟩

end Build

end Blockwright
