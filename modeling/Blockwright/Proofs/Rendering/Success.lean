import Blockwright.Proofs.Rendering.Counters
import Blockwright.Proofs.Theme.Pixels

/-!
# Textures that can be rendered

A texture is rendered if its image is large enough and has a pixel to be seen and two that contrast
after recoloring, because nudging leaves these different. The image of an asset that was written is
read back.
-/

namespace Blockwright

namespace Image

theorem mem_ofFn {width height : UInt32} {pixel : Nat → Nat → Pixel} {x y : Nat}
    (left : x < width.toNat) (top : y < height.toNat) :
    pixel x y ∈ (ofFn width height pixel).pixels := by
  refine Array.mem_ofFn.2 ⟨⟨y * width.toNat + x, position_lt left top⟩, ?_⟩
  dsimp only
  rw [position_mod left, position_div left]

theorem exists_of_mem_ofFn {width height : UInt32} {pixel : Nat → Nat → Pixel} {found : Pixel}
    (isPixel : found ∈ (ofFn width height pixel).pixels) : ∃ x y, found = pixel x y := by
  obtain ⟨index, same⟩ := Array.mem_ofFn.1 isPixel
  exact ⟨_, _, same.symm⟩

theorem sized_noise (seed : String) (base : Color) (amplitude : Nat) (width height : UInt32) :
    (noise seed base amplitude width height).Sized :=
  sized_ofFn width height _

theorem mem_noise {seed : String} {base : Color} {amplitude : Nat} {width height : UInt32}
    {x y : Nat} (left : x < width.toNat) (top : y < height.toNat) :
    Pixel.solid (base.shade (Motif.noiseBelow (Fnv.seeded seed) x y (2 * amplitude + 1) -
      amplitude)) ∈ (noise seed base amplitude width height).pixels :=
  mem_ofFn left top

theorem ensureVaried_of_ne {image : Image} {first second : Pixel} (isFirst : first ∈ image.pixels)
    (isSecond : second ∈ image.pixels) (different : first ≠ second) :
    image.ensureVaried = image := by
  rw [ensureVaried]
  refine if_neg fun alike => different ?_
  have same : ∀ pixel ∈ image.pixels, pixel = image.get 0 0 := fun pixel isPixel =>
    eq_of_beq (Array.all_eq_true'.1 alike pixel isPixel)
  exact (same first isFirst).trans (same second isSecond).symm

/-- A texture without motifs is noise, unless that is of one color. -/
theorem synthesize_of_plain {seed : String} {profile : Profile} {hint : Option Color}
    {width height : UInt32} (plain : profile.motifs = []) {first second : Pixel}
    (isFirst : first ∈
      (noise seed (hint.getD profile.material.baseColor) profile.amplitude width height).pixels)
    (isSecond : second ∈
      (noise seed (hint.getD profile.material.baseColor) profile.amplitude width height).pixels)
    (different : first ≠ second) :
    synthesize seed profile hint width height =
      noise seed (hint.getD profile.material.baseColor) profile.amplitude width height := by
  have unstamped : Motif.sort profile.motifs = [] := by
    rw [plain]
    rfl
  rw [synthesize, unstamped, List.foldl_nil]
  exact ensureVaried_of_ne isFirst isSecond different

end Image

namespace Theme

variable {settings : ThemeSettings} {source : Image} {hue : Float32} {attempt : Nat}

/-- Whether two pixels of an image contrast when it is recolored in a try. -/
def KeepsContrast (settings : ThemeSettings) (hue : Float32) (attempt : Nat) (source : Image) :
    Prop :=
  ∃ first ∈ source.pixels, ∃ second ∈ source.pixels,
    (tint settings hue attempt first).Contrasts (tint settings hue attempt second)

/-- Opacities are not recolored, so that pixels of unlike opacity contrast in every try. -/
theorem keepsContrast_of_alpha {first second : Pixel} (isFirst : first ∈ source.pixels)
    (isSecond : second ∈ source.pixels) (unlike : first.alpha ≠ second.alpha)
    (settings : ThemeSettings) (hue : Float32) (attempt : Nat) :
    KeepsContrast settings hue attempt source :=
  ⟨first, isFirst, second, isSecond, .inl (by rwa [alpha_tint, alpha_tint])⟩

theorem isPresentable_candidate (presentable : source.IsPresentable)
    (keeps : KeepsContrast settings hue attempt source) (owner : String) :
    (candidate settings source hue owner attempt).IsPresentable := by
  have sides := sameSides_candidate settings source hue owner attempt
  obtain ⟨pixel, isPixel, visible⟩ := presentable.seen
  obtain ⟨themed, isThemed, near⟩ := exists_near settings hue owner attempt isPixel
  obtain ⟨first, isFirst, second, isSecond, contrasts⟩ := keeps
  obtain ⟨one, isOne, nearFirst⟩ := exists_near settings hue owner attempt isFirst
  obtain ⟨other, isOther, nearSecond⟩ := exists_near settings hue owner attempt isSecond
  exact {
    sized := sides.sized presentable.sized
    wide := sides.width ▸ presentable.wide
    high := sides.height ▸ presentable.high
    seen := ⟨themed, isThemed, by rw [Pixel.isVisible, near.alpha, alpha_tint]; exact visible⟩
    varied := ⟨one, isOne, other, isOther, contrasts.ne_of_near nearFirst nearSecond⟩ }

theorem isPresentable_themed (presentable : source.IsPresentable)
    (keeps : ∀ attempt ≤ settings.retryCap.toNat, KeepsContrast settings hue attempt source)
    {owner : String} {gallery after : Gallery} {themed : Themed}
    (made : themed? settings source hue owner gallery = some (themed, after)) :
    themed.image.IsPresentable := by
  obtain ⟨isCandidate, few⟩ := (search?_eq_some.1 made).image_eq
  rw [isCandidate]
  exact isPresentable_candidate presentable (keeps _ (by omega)) owner

/-- A texture is themed if its sides are shorter than `2 ^ 30` and there is room for all retries. -/
theorem exists_themed (short : source.width.toNat < 2 ^ 30 ∧ source.height.toNat < 2 ^ 30)
    (owner : String) {gallery : Gallery}
    (collisions : gallery.collisions.toNat + (settings.retryCap.toNat + 1) < UInt32.size)
    (duplicates : gallery.exhausted.toNat + 1 < UInt32.size) :
    ∃ themed after, themed? settings source hue owner gallery = some (themed, after) := by
  have looks (attempt : Nat) :
      (candidate settings source hue owner attempt).look?.isSome = true := by
    rw [(sameSides_candidate settings source hue owner attempt).isSome_look?_eq]
    exact Image.isSome_look?_iff.2 short
  exact (exists_search?_iff looks).2 ⟨fun last few _ _ => by omega, fun _ => duplicates⟩

end Theme

/-! ## Textures and files -/

namespace Validation

theorem length_violations_le {path : String} {bytes : List UInt8} {validation : Validation}
    (said : ofBytes? path bytes = some validation) : validation.violations.length ≤ 5 := by
  rcases ofBytes?_cases said with ⟨png, image, -, -, rfl⟩ | ⟨-, error, remedies, rfl⟩
  · rw [violations_ofImage, TextureRule.violations, List.length_map]
    exact List.length_filter_le _ TextureRule.all
  · exact Nat.le_add_left 1 4

end Validation

namespace Renderer

/-- The most that a texture adds to a counter. -/
def mostCost (renderer : Renderer) : Nat := renderer.settings.retryCap.toNat + 6

/-- Whether a task can be painted with an image. -/
structure CanPaint (renderer : Renderer) (task : TextureTask) (image : Image) : Prop where
  presentable : image.IsPresentable
  contrast : ∀ attempt ≤ renderer.settings.retryCap.toNat,
    Theme.KeepsContrast renderer.settings (Hue.ofEntity task.color task.hueKey) attempt image
  kept : Png.Keeps renderer.compress image.width image.height
  short : image.width.toNat < 2 ^ 30 ∧ image.height.toNat < 2 ^ 30

variable {μ : Type} {renderer : Renderer} {task : TextureTask} {origin : Origin} {image : Image}

theorem cost_le {themed : Themed} (few : themed.attempts ≤ renderer.settings.retryCap.toNat)
    {warnings : Nat} (fewWarnings : warnings ≤ 5) (origin : Origin) (counter : Counter) :
    (themed.cost + Tally.cost origin themed.attempts warnings) counter ≤ renderer.mostCost := by
  have warned : (UInt32.ofNat warnings).toNat = warnings :=
    UInt32.toNat_ofNat_of_lt' (fewWarnings.trans_lt (by decide))
  rw [Pi.add_apply, mostCost]
  cases counter <;>
    simp only [Themed.cost, Themed.collisions, Themed.duplicates, Tally.cost, warned] <;>
    (try split) <;> omega

theorem CanPaint.exists_paint (can : renderer.CanPaint task image) (path : String)
    (origin : Origin) {run : Run μ} (room : run.HasRoom fun _ => renderer.mostCost) :
    ∃ bytes after cost, renderer.paint path task origin image run = (.ok bytes, after) ∧
      run.Spends cost after ∧ ∀ counter, cost counter ≤ renderer.mostCost := by
  have roomForRetries := room .collisions
  have roomForDuplicate := room .exhausted
  simp only [mostCost, Run.count] at roomForRetries roomForDuplicate
  obtain ⟨themed, gallery, made⟩ : ∃ themed gallery,
      Theme.themed? renderer.settings image (Hue.ofEntity task.color task.hueKey) path run.gallery =
        some (themed, gallery) :=
    Theme.exists_themed can.short path (by omega) (by omega)
  have sides := Theme.sameSides_of_themed made
  have kept : Png.Keeps renderer.compress themed.image.width themed.image.height := by
    rw [sides.width, sides.height]
    exact can.kept
  have presentable := Theme.isPresentable_themed can.presentable can.contrast made
  obtain ⟨file, validation, encoded, -, -, said, valid⟩ := presentable.exists_encodeWith kept path
  have finished := finish_eq_ok.2 ⟨file, validation, encoded, said, valid, rfl, rfl⟩
  have few := (Theme.search?_eq_some.1 made).image_eq.2
  rw [Nat.zero_add] at few
  have bounded := cost_le few (Validation.length_violations_le said) origin
  have spends := Run.spends_themed made
  have fits := spends.hasRoom_iff.1 fun counter =>
    (Nat.add_le_add_left (bounded counter) _).trans_lt (room counter)
  obtain ⟨tally, counted⟩ := Run.exists_add? fits
  have more : Run.Spends { run with gallery } _ { run with gallery, tally } :=
    Run.spends_add? counted
  refine ⟨Bytes.ofList file, { run with gallery, tally }, _, ?_, spends.trans more, bounded⟩
  simp only [paint, made, finished, counted]

end Renderer

/-! ## Files -/

namespace Renderer

/-- Whether a file can be rendered at a bounded cost, as long as every counter has room for it. -/
def CanRender (μ : Type) [BlockMemory μ] (renderer : Renderer) (file : TreeFile) : Prop :=
  ∀ run : Run μ, run.HasRoom (fun _ => renderer.mostCost) →
    ∃ done after cost, renderer.file file run = (.ok done, after) ∧ run.Spends cost after ∧
      ∀ counter, cost counter ≤ renderer.mostCost

variable {μ : Type} [BlockMemory μ] {renderer : Renderer}

theorem canRender_of_finished {file : TreeFile} (finished : file.bytes?.isSome = true) :
    renderer.CanRender μ file :=
  fun run _ => ⟨file, run, 0, file_of_finished finished run, .refl run, fun _ => Nat.zero_le _⟩

/-- A placeholder is filled with a texture that can be painted, whatever is known about blocks. -/
theorem CanPaint.canRender {task : TextureTask} {origin : Origin} {image : Image}
    (can : renderer.CanPaint task image) {file : TreeFile} (placeholder : file.bytes? = none)
    (isTask : file.task = some task)
    (made : ∀ found,
      Origin.image renderer.compress renderer.source found file.path task = .ok (origin, image)) :
    renderer.CanRender μ file := by
  intro run room
  obtain ⟨path, contents, otherTask⟩ := file
  cases contents with
  | text value => cases placeholder
  | binary bytes => cases placeholder
  | placeholder =>
    cases isTask
    have consulted := run.spends_consult renderer.source task.source
    obtain ⟨bytes, after, cost, painted, spends, bounded⟩ := can.exists_paint path origin
      (consulted.hasRoom_iff.1 (by rwa [zero_add]))
    refine ⟨⟨path, .binary bytes, some task⟩, after, cost, ?_,
      zero_add cost ▸ consulted.trans spends,
      bounded⟩
    simp only [Renderer.file, texture, made, painted, Except.map]

/-- Whether an image that can be painted is found for the texture of a file, whatever is known about
blocks. -/
structure Finds (renderer : Renderer) (file : TreeFile) (task : TextureTask) (image : Image) :
    Prop where
  placeholder : file.bytes? = none
  isTask : file.task = some task
  made : ∃ origin, ∀ found,
    Origin.image renderer.compress renderer.source found file.path task = .ok (origin, image)
  canPaint : renderer.CanPaint task image

namespace Finds

variable {file done : TreeFile} {task : TextureTask} {image : Image}

theorem canRender (finds : renderer.Finds file task image) : renderer.CanRender μ file := by
  obtain ⟨origin, made⟩ := finds.made
  exact finds.canPaint.canRender finds.placeholder finds.isTask made

omit [BlockMemory μ] in
/-- The texture has the sides of the image that is found. -/
theorem exists_paints (finds : renderer.Finds file task image)
    (rendered : Rendered renderer file done) :
    ∃ painted bytes, done.bytes? = some bytes ∧ renderer.Paints file.path task painted bytes ∧
      painted.SameSides image := by
  obtain ⟨other, painted, bytes, isTask, holds, paints⟩ := rendered.painted finds.placeholder
  obtain rfl := Option.some.inj (finds.isTask.symm.trans isTask)
  obtain ⟨origin, made⟩ := finds.made
  obtain ⟨found, otherOrigin, source, isSource, sides⟩ := paints.made
  obtain ⟨-, rfl⟩ := Prod.mk.inj (Except.ok.inj ((made found).symm.trans isSource))
  exact ⟨painted, bytes, holds, paints, sides⟩

end Finds

theorem exists_files {files : List TreeFile} (each : ∀ file ∈ files, renderer.CanRender μ file)
    {run : Run μ} (room : run.HasRoom fun _ => files.length * renderer.mostCost) :
    ∃ done after, renderer.files files run = (.ok done, after) := by
  induction files generalizing run with
  | nil => exact ⟨[], run, rfl⟩
  | cons next rest ih =>
    obtain ⟨ofNext, ofRest⟩ := List.forall_mem_cons.1 each
    rw [List.length_cons, Nat.succ_mul] at room
    obtain ⟨first, middle, cost, firstOk, spends, bounded⟩ := ofNext run fun counter =>
      (Nat.add_le_add_left (Nat.le_add_left _ _) _).trans_lt (room counter)
    obtain ⟨others, after, othersOk⟩ := @ih ofRest middle fun counter => by
      have total : (run.count counter).toNat +
          (rest.length * renderer.mostCost + renderer.mostCost) < UInt32.size := room counter
      have few := bounded counter
      change (middle.count counter).toNat + rest.length * renderer.mostCost < UInt32.size
      rw [spends counter]
      omega
    refine ⟨first :: others, after, ?_⟩
    simp only [Renderer.files, firstOk, othersOk, Except.map]

theorem exists_render {batch : List TreeFile} (each : ∀ file ∈ batch, renderer.CanRender μ file)
    {run : Run μ} (room : run.HasRoom fun _ => batch.length * renderer.mostCost) :
    ∃ done after, renderer.render batch run = (.ok done, after) := by
  obtain ⟨done, last, filesOk⟩ := exists_files each room
  exact ⟨done, _, by rw [render, filesOk]⟩

end Renderer

/-- The image of an asset that was written is read back. -/
theorem Origin.decode_of_encodeWith {compress : List UInt8 → List UInt8} {image part : Image}
    {file : List UInt8} (undone : Zlib.Undoes compress)
    (fits : (compress (Png.scanlines image.width image.bytes)).length < UInt32.size)
    (encoded : Png.encodeImageWith compress image = .ok file) {role : TextureRole}
    (isPart : role.crop? image = some part) (path asset : String) :
    decode compress path asset role (Bytes.ofList file) = .ok part := by
  have decoded := Png.decode_of_encodeWith undone encoded fits
  have normalized : Png.normalizeWith compress file = .ok file := by
    rw [Png.normalizeWith, decoded]
    rfl
  rw [decode, Bytes.list_ofList, normalized]
  dsimp only
  rw [Png.decodeImage_of_encodeImageWith undone encoded fits]
  dsimp only
  rw [isPart]

/-! ## Small textures -/

namespace Renderer

/-- An image of at most 64 columns and rows that can be presented can be painted, if contrast is
left and textures are stored. -/
theorem CanPaint.of_small {renderer : Renderer} {task : TextureTask} {image : Image}
    (isStored : renderer.compress = Zlib.encode) (presentable : image.IsPresentable)
    (contrast : ∀ attempt,
      Theme.KeepsContrast renderer.settings (Hue.ofEntity task.color task.hueKey) attempt image)
    (narrow : image.width ≤ 64) (low : image.height ≤ 64) : renderer.CanPaint task image := by
  have small := Png.dataSize_writtenHeader_le narrow low
  have columns := UInt32.le_iff_toNat_le.1 narrow
  have rows := UInt32.le_iff_toNat_le.1 low
  have positive : image.width ≠ 0 := by
    intro none
    have wide := presentable.wide
    rw [none] at wide
    exact absurd wide (by decide)
  exact {
    presentable
    contrast := fun attempt _ => contrast attempt
    kept := by
      rw [isStored]
      exact Png.keeps_encode positive
        ((Nat.add_le_add_right (Nat.mul_le_mul_left 2 small) 11).trans_lt (by decide))
    short := ⟨columns.trans_lt (by decide), rows.trans_lt (by decide)⟩ }

/-- The image of a copied asset is found where the asset was written. -/
theorem finds_of_copies {renderer : Renderer} (isStored : renderer.compress = Zlib.encode)
    {file : TreeFile} {task : TextureTask} (placeholder : file.bytes? = none)
    (isTask : file.task = some task) {location asset : String}
    (copies : task.source = .copies [location])
    (isAsset : Location.textureFile (Location.canonical location) = asset) {image : Image}
    {bytes : List UInt8} (encoded : Png.encodeImageWith Zlib.encode image = .ok bytes)
    (read : renderer.source.read asset = .ok (some (Bytes.ofList bytes)))
    (isWhole : task.role.crop? image = some image) (canPaint : renderer.CanPaint task image) :
    renderer.Finds file task image where
  placeholder
  isTask
  made := by
    refine ⟨.copied, fun found => ?_⟩
    have length : image.bytes.length = 4 * Image.area image.width image.height :=
      (Png.encodeWith_eq_ok.1 encoded).2.2.1
    have decoded := Origin.decode_of_encodeWith canPaint.kept.undone
      (canPaint.kept.fits image.bytes length) (isStored ▸ encoded) isWhole file.path asset
    rw [Origin.image, Origin.asset?, copies]
    dsimp only
    rw [Origin.copied?, isAsset, Origin.image?, read]
    dsimp only
    rw [decoded]
    rfl
  canPaint

end Renderer

/-! ## Dark textures -/

namespace Image

/-- Noise of a color that is nearly black. -/
def dark (seed : String) (width height : UInt32) : Image := noise seed ⟨8, 8, 8⟩ 12 width height

/-- Whether the noise of a seed has a value in the first sixteen columns and rows. -/
def NoiseTakes (seed : String) (value : Nat) : Prop :=
  ∃ x < 16, ∃ y < 16, Motif.noiseBelow (Fnv.seeded seed) x y 25 = value

instance (seed : String) (value : Nat) : Decidable (NoiseTakes seed value) :=
  inferInstanceAs
    (Decidable (∃ x < 16, ∃ y < 16, Motif.noiseBelow (Fnv.seeded seed) x y 25 = value))

variable {seed : String} {width height : UInt32}

theorem mem_dark {value : Nat} (takes : NoiseTakes seed value) (wide : 16 ≤ width)
    (high : 16 ≤ height) :
    Pixel.solid (Color.shade ⟨8, 8, 8⟩ (value - 12)) ∈ (dark seed width height).pixels := by
  obtain ⟨x, left, y, top, rfl⟩ := takes
  exact mem_noise (left.trans_le (UInt32.le_iff_toNat_le.1 wide))
    (top.trans_le (UInt32.le_iff_toNat_le.1 high))

/-- Whether the noise of a seed takes its greatest and its least value. -/
def HasExtremes (seed : String) : Prop := NoiseTakes seed 24 ∧ NoiseTakes seed 0

instance (seed : String) : Decidable (HasExtremes seed) := inferInstanceAs (Decidable (_ ∧ _))

theorem HasExtremes.mem_dark (extremes : HasExtremes seed) (wide : 16 ≤ width)
    (high : 16 ≤ height) :
    Pixel.solid ⟨20, 20, 20⟩ ∈ (dark seed width height).pixels ∧
      Pixel.solid ⟨0, 0, 0⟩ ∈ (dark seed width height).pixels :=
  ⟨Image.mem_dark extremes.1 wide high, Image.mem_dark extremes.2 wide high⟩

theorem isPresentable_dark (extremes : HasExtremes seed) (wide : 16 ≤ width) (high : 16 ≤ height) :
    (dark seed width height).IsPresentable := by
  obtain ⟨light, black⟩ := extremes.mem_dark wide high
  exact {
    sized := sized_noise _ _ _ _ _
    wide
    high
    seen := ⟨_, light, rfl⟩
    varied := ⟨_, light, _, black, by decide⟩ }

theorem keepsContrast_dark (extremes : HasExtremes seed) (wide : 16 ≤ width) (high : 16 ≤ height)
    (settings : ThemeSettings) (hue : Float32) (attempt : Nat) :
    Theme.KeepsContrast settings hue attempt (dark seed width height) := by
  obtain ⟨light, black⟩ := extremes.mem_dark wide high
  refine ⟨_, light, _, black, .inr ?_⟩
  rw [Theme.tint_of_dark (by decide +kernel), Theme.tint_of_dark (by decide +kernel)]
  decide

end Image

/-- Whether a task asks for a small texture without motifs that is nearly black. -/
def TextureTask.IsDark (task : TextureTask) : Prop :=
  task.profile.motifs = [] ∧ task.color = some ⟨8, 8, 8⟩ ∧ Image.HasExtremes task.location ∧
    (16 ≤ task.width ∧ 16 ≤ task.height) ∧ task.width ≤ 64 ∧ task.height ≤ 64

instance (task : TextureTask) : Decidable task.IsDark := inferInstanceAs (Decidable (_ ∧ _))

namespace TextureTask.IsDark

variable {task : TextureTask}

theorem synthesize_eq (isDark : task.IsDark) :
    Origin.synthesize task = .ok (.dark task.location task.width task.height) := by
  obtain ⟨plain, color, extremes, ⟨wide, high⟩, narrow, low⟩ := isDark
  have amplitude : task.profile.amplitude = 12 := by rw [Profile.amplitude, plain]
  obtain ⟨light, black⟩ := extremes.mem_dark wide high
  have whole := @Image.synthesize_of_plain task.location task.profile task.color task.width
    task.height plain
  rw [amplitude, color, Option.getD_some] at whole
  have columns := UInt32.le_iff_toNat_le.1 wide
  have rows := UInt32.le_iff_toNat_le.1 high
  have few : 4 * Image.area task.width task.height < Image.capacity := by
    have area : Image.area task.width task.height ≤ 64 * 64 :=
      Nat.mul_le_mul (UInt32.le_iff_toNat_le.1 narrow) (UInt32.le_iff_toNat_le.1 low)
    exact (Nat.mul_le_mul_left 4 area).trans_lt (by decide)
  rw [Origin.synthesize, Image.synthesize?_eq
    (Nat.ne_of_gt (Nat.lt_of_lt_of_le (by decide) columns))
    (Nat.ne_of_gt (Nat.lt_of_lt_of_le (by decide) rows)), if_pos few, color,
    whole light black (by decide)]
  rfl

theorem canPaint (isDark : task.IsDark) {renderer : Renderer}
    (isStored : renderer.compress = Zlib.encode) :
    renderer.CanPaint task (.dark task.location task.width task.height) := by
  obtain ⟨-, -, extremes, ⟨wide, high⟩, narrow, low⟩ := isDark
  exact .of_small isStored (Image.isPresentable_dark extremes wide high)
    (Image.keepsContrast_dark extremes wide high _ _) narrow low

/-- The image of a dark texture is found where there is no asset for it. -/
theorem finds (isDark : task.IsDark) {renderer : Renderer}
    (isStored : renderer.compress = Zlib.encode)
    {file : TreeFile} (placeholder : file.bytes? = none) (isTask : file.task = some task)
    (noAsset : ∀ found, Origin.asset? renderer.compress renderer.source found file.path task =
      .ok none) :
    renderer.Finds file task (.dark task.location task.width task.height) where
  placeholder
  isTask
  made := by
    refine ⟨.synthesized, fun found => ?_⟩
    rw [Origin.image, noAsset found, isDark.synthesize_eq]
    rfl
  canPaint := isDark.canPaint isStored

end TextureTask.IsDark

end Blockwright
