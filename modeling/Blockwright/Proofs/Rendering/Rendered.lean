import Blockwright.Proofs.Outcome
import Blockwright.Proofs.Png.Written
import Blockwright.Proofs.Theme.Search
import Blockwright.Rendering.Texture

/-!
# What rendering keeps

Rendering keeps the paths of files and the bytes of those that are finished. A placeholder gets the
bytes of an image; if no assets are found, the image has the sides that its task asks for.
-/

namespace Blockwright

/-- Whether no asset is found in a source. -/
def AssetSource.HasNone (source : AssetSource) : Prop :=
  ∀ path bytes, source.read path ≠ .ok (some bytes)

theorem AssetSource.hasNone_empty : empty.HasNone := by
  intro path bytes found
  simp only [empty, ofTable, guarded, List.lookup] at found
  split at found <;> simp at found

/-- Whether bytes are the file of an image with the sides of the one that is found for a task, and
the game loads it. -/
structure Renderer.Paints (renderer : Renderer) (path : String) (task : TextureTask)
    (image : Image) (bytes : ByteArray) : Prop where
  made : ∃ found origin source, Origin.image renderer.compress renderer.source found path task =
    .ok (origin, source) ∧ image.SameSides source
  encoded : Png.encodeImageWith renderer.compress image = .ok (Bytes.list bytes)
  loadable : Png.IsLoadable (Bytes.list bytes)

/-- What rendering makes of a file. -/
structure Rendered (renderer : Renderer) (file done : TreeFile) : Prop where
  path : done.path = file.path
  kept : ∀ bytes, file.bytes? = some bytes → done.bytes? = some bytes
  /-- A placeholder gets a texture for its task. -/
  painted : file.bytes? = none → ∃ task image bytes, file.task = some task ∧
    done.bytes? = some bytes ∧ renderer.Paints file.path task image bytes

/-- Every rendered file is finished. -/
theorem Rendered.exists_bytes {renderer : Renderer} {file done : TreeFile}
    (rendered : Rendered renderer file done) : ∃ bytes, done.bytes? = some bytes := by
  cases found : file.bytes? with
  | some bytes => exact ⟨bytes, rendered.kept bytes found⟩
  | none =>
    obtain ⟨_, _, bytes, -, holds, -⟩ := rendered.painted found
    exact ⟨bytes, holds⟩

namespace Origin

variable {compress : List UInt8 → List UInt8} {source : AssetSource}

theorem image?_of_hasNone (noAssets : source.HasNone) {path asset : String} {role : TextureRole}
    {found : Option Image} (read : image? compress source path role asset = .ok found) :
    found = none := by
  rw [image?] at read
  split at read
  · cases read
  · cases read
    rfl
  · next bytes isAsset => exact absurd isAsset (noAssets asset bytes)

theorem copied?_of_hasNone (noAssets : source.HasNone) {path : String} {role : TextureRole}
    {locations : List String} {found : Option Image}
    (read : copied? compress source path role locations = .ok found) : found = none := by
  induction locations with
  | nil =>
    cases read
    rfl
  | cons location rest ih =>
    obtain ⟨first, firstOk, read⟩ := Outcome.bind_eq_ok.1 read
    obtain rfl := image?_of_hasNone noAssets firstOk
    exact ih read

theorem asset?_of_hasNone (noAssets : source.HasNone) {dependencies : Dependencies} {path : String}
    {task : TextureTask} {found : Option (Origin × Image)}
    (read : asset? compress source dependencies path task = .ok found) : found = none := by
  rw [asset?] at read
  split at read
  · obtain ⟨image, copied, rfl⟩ := Outcome.map_eq_ok.1 read
    rw [copied?_of_hasNone noAssets copied]
    rfl
  · obtain ⟨image, templated, rfl⟩ := Outcome.map_eq_ok.1 read
    rw [templated?] at templated
    split at templated
    · rw [image?_of_hasNone noAssets templated]
      rfl
    · cases templated
      rfl
  · cases read
    rfl

theorem image_of_hasNone (noAssets : source.HasNone) {dependencies : Dependencies} {path : String}
    {task : TextureTask} {origin : Origin} {image : Image}
    (made : Origin.image compress source dependencies path task = .ok (origin, image)) :
    synthesize task = .ok image := by
  obtain ⟨found, foundOk, made⟩ := Outcome.bind_eq_ok.1 made
  obtain rfl := asset?_of_hasNone noAssets foundOk
  obtain ⟨synthetic, isSynthetic, same⟩ := Outcome.bind_eq_ok.1 made
  cases same
  exact isSynthetic

/-- A synthesized image has the sides that its task asks for. -/
theorem sides_of_synthesize {task : TextureTask} {image : Image}
    (made : synthesize task = .ok image) :
    image.width = task.width ∧ image.height = task.height := by
  rw [synthesize] at made
  split at made
  · next isImage =>
    cases made
    exact Image.synthesize?_sides isImage
  · cases made

end Origin

namespace Renderer.Paints

variable {renderer : Renderer} {path : String} {task : TextureTask} {image : Image}
  {bytes : ByteArray}

/-- If no assets are found, a texture has the sides that its task asks for. -/
theorem sides_of_hasNone (paints : renderer.Paints path task image bytes)
    (noAssets : renderer.source.HasNone) :
    image.width = task.width ∧ image.height = task.height := by
  obtain ⟨_, _, _, made, sides⟩ := paints.made
  rw [sides.width, sides.height]
  exact Origin.sides_of_synthesize (Origin.image_of_hasNone noAssets made)

/-- A texture is read with the sides of its image. -/
theorem exists_decode (paints : renderer.Paints path task image bytes) :
    ∃ png, Png.decode (Bytes.list bytes) = .ok png ∧ png.header.width = image.width ∧
      png.header.height = image.height := by
  obtain ⟨png, -, decoded, -⟩ := Png.isPresentable_of_encodeWith paints.encoded paints.loadable
  have header := Png.header_of_encodeWith paints.encoded decoded
  exact ⟨png, decoded, by rw [header]; rfl, by rw [header]; rfl⟩

/-- A small texture whose rows are stored makes a small file. -/
theorem size_le (paints : renderer.Paints path task image bytes)
    (isStored : renderer.compress = Zlib.encode) (narrow : image.width ≤ 64)
    (low : image.height ≤ 64) : bytes.size ≤ 40000 := by
  have encoded := paints.encoded
  obtain ⟨⟨wide, -⟩, -, length, -⟩ := Png.encodeWith_eq_ok.1 encoded
  have whole := Png.length_of_encodeWith encoded
  have stored := Zlib.length_encode_le (Png.scanlines image.width image.bytes)
  rw [Png.length_scanlines wide length] at stored
  have small := Png.dataSize_writtenHeader_le narrow low
  rw [isStored, Bytes.length_list] at whole
  omega

end Renderer.Paints

section Memories

variable {μ : Type}

namespace Run

variable [BlockMemory μ]

/-- Looking up a block changes nothing but what is known about blocks. -/
theorem consult_eq (run : Run μ) (source : AssetSource) (texture : TextureSource) :
    ∃ found memory, run.consult source texture = (found, { run with memory }) := by
  cases texture with
  | template block => exact ⟨_, _, rfl⟩
  | copies locations => exact ⟨_, _, rfl⟩
  | procedural => exact ⟨_, _, rfl⟩

@[simp]
theorem gallery_consult (run : Run μ) (source : AssetSource) (texture : TextureSource) :
    (run.consult source texture).2.gallery = run.gallery := by
  obtain ⟨found, memory, same⟩ := run.consult_eq source texture
  rw [same]

end Run

namespace Renderer

variable {renderer : Renderer}

/-- A finished texture is the file of its image, and nothing keeps it out. -/
theorem finish_eq_ok {path : String} {image : Image} {bytes : ByteArray} {warnings : Nat} :
    renderer.finish path image = .ok (bytes, warnings) ↔
      ∃ file validation, Png.encodeImageWith renderer.compress image = .ok file ∧
        Validation.ofBytes? path file = some validation ∧ validation.valid = true ∧
        bytes = Bytes.ofList file ∧ warnings = validation.violations.length := by
  constructor
  · intro finished
    rw [finish] at finished
    split at finished
    · cases finished
    · next file encoded =>
      split at finished
      · cases finished
      · next validation said =>
        split at finished
        · next valid =>
          cases finished
          exact ⟨file, validation, encoded, said, valid, rfl, rfl⟩
        · cases finished
  · rintro ⟨file, validation, encoded, said, valid, rfl, rfl⟩
    simp only [finish, encoded, said, valid, if_true]

/-- What a finished texture is made of. -/
theorem finish_cases {path : String} {image : Image} {bytes : ByteArray} {warnings : Nat}
    (finished : renderer.finish path image = .ok (bytes, warnings)) :
    Png.encodeImageWith renderer.compress image = .ok (Bytes.list bytes) ∧
      Png.IsLoadable (Bytes.list bytes) := by
  obtain ⟨file, validation, encoded, said, valid, rfl, -⟩ := finish_eq_ok.1 finished
  rw [Bytes.list_ofList]
  exact ⟨encoded, (Validation.valid_iff_isLoadable said).1 valid⟩

theorem paint_cases {path : String} {task : TextureTask} {origin : Origin} {image : Image}
    {run after : Run μ} {bytes : ByteArray}
    (painted : renderer.paint path task origin image run = (.ok bytes, after)) :
    ∃ themed gallery warnings tally,
      Theme.themed? renderer.settings image (Hue.ofEntity task.color task.hueKey) path run.gallery =
        some (themed, gallery) ∧
      renderer.finish path themed.image = .ok (bytes, warnings) ∧
      run.tally.add? origin themed.attempts warnings = some tally ∧
      after = { run with gallery, tally } := by
  rw [paint] at painted
  dsimp only at painted
  split at painted
  · cases painted
  · next themed gallery isThemed =>
    split at painted
    · cases painted
    · next warnings finished =>
      split at painted
      · cases painted
      · next tally counted =>
        cases painted
        exact ⟨themed, gallery, warnings, tally, isThemed, finished, counted, rfl⟩

variable [BlockMemory μ]

/-- A texture is made from the image that is found for it, which is themed and then finished. -/
theorem texture_cases {path : String} {task : TextureTask} {run after : Run μ} {bytes : ByteArray}
    (made : renderer.texture path task run = (.ok bytes, after)) :
    ∃ found origin image themed warnings,
      Origin.image renderer.compress renderer.source found path task = .ok (origin, image) ∧
      Theme.themed? renderer.settings image (Hue.ofEntity task.color task.hueKey) path run.gallery =
        some (themed, after.gallery) ∧
      renderer.finish path themed.image = .ok (bytes, warnings) := by
  rw [texture] at made
  dsimp only at made
  split at made
  · cases made
  · next origin image isImage =>
    obtain ⟨themed, gallery, warnings, tally, isThemed, finished, -, rfl⟩ := paint_cases made
    rw [Run.gallery_consult] at isThemed
    exact ⟨_, origin, image, themed, warnings, isImage, isThemed, finished⟩

/-- A file that is finished stays as it is; a placeholder gets its texture. -/
theorem file_cases {file done : TreeFile} {run after : Run μ}
    (rendered : renderer.file file run = (.ok done, after)) :
    (file.bytes?.isSome = true ∧ done = file ∧ after = run) ∨
      (file.bytes? = none ∧ ∃ task bytes, file.task = some task ∧
        renderer.texture file.path task run = (.ok bytes, after) ∧
        done = { file with contents := .binary bytes }) := by
  obtain ⟨path, contents, task⟩ := file
  cases contents with
  | text value =>
    cases rendered
    exact .inl ⟨rfl, rfl, rfl⟩
  | binary bytes =>
    cases rendered
    exact .inl ⟨rfl, rfl, rfl⟩
  | placeholder =>
    cases task with
    | none => cases rendered
    | some task =>
      rw [file] at rendered
      dsimp only at rendered
      rw [Prod.mk.injEq] at rendered
      obtain ⟨bytes, made, rfl⟩ := Outcome.map_eq_ok.1 rendered.1
      exact .inr ⟨rfl, task, bytes, rfl, Prod.ext made rendered.2, rfl⟩

theorem files_cons_error {next : TreeFile} {run : Run μ} {error : RenderError}
    (failed : (renderer.file next run).1 = .error error) (rest : List TreeFile) :
    renderer.files (next :: rest) run = (.error error, (renderer.file next run).2) := by
  rw [files]
  split
  · next first =>
    rw [first] at failed ⊢
    cases failed
    rfl
  · next first =>
    rw [first] at failed
    cases failed

theorem files_cons_ok {next done : TreeFile} {run : Run μ}
    (first : (renderer.file next run).1 = .ok done)
    (rest : List TreeFile) :
    renderer.files (next :: rest) run =
      ((renderer.files rest (renderer.file next run).2).1.map (done :: ·),
        (renderer.files rest (renderer.file next run).2).2) := by
  rw [files]
  split
  · next failed =>
    rw [failed] at first
    cases first
  · next isDone =>
    rw [isDone] at first ⊢
    cases first
    rfl

/-- Files are rendered one after the other. -/
theorem files_cons_eq_ok {next : TreeFile} {rest done : List TreeFile} {run after : Run μ}
    (rendered : renderer.files (next :: rest) run = (.ok done, after)) :
    ∃ first middle others, renderer.file next run = (.ok first, middle) ∧
      renderer.files rest middle = (.ok others, after) ∧ done = first :: others := by
  rw [files] at rendered
  split at rendered
  · cases rendered
  · next first middle firstOk =>
    dsimp only at rendered
    rw [Prod.mk.injEq] at rendered
    obtain ⟨others, othersOk, rfl⟩ := Outcome.map_eq_ok.1 rendered.1
    exact ⟨first, middle, others, firstOk, Prod.ext othersOk rendered.2, rfl⟩

theorem paints_of_texture {path : String} {task : TextureTask} {run after : Run μ}
    {bytes : ByteArray} (made : renderer.texture path task run = (.ok bytes, after)) :
    ∃ image, renderer.Paints path task image bytes := by
  obtain ⟨found, origin, source, themed, warnings, isImage, isThemed, finished⟩ :=
    texture_cases made
  obtain ⟨encoded, loadable⟩ := finish_cases finished
  exact ⟨themed.image, ⟨found, origin, source, isImage, Theme.sameSides_of_themed isThemed⟩,
    encoded, loadable⟩

theorem file_eq_ok {file done : TreeFile} {run after : Run μ}
    (rendered : renderer.file file run = (.ok done, after)) :
    Rendered renderer file done := by
  rcases file_cases rendered with ⟨finished, rfl, -⟩ | ⟨none, task, bytes, isTask, made, rfl⟩
  · exact ⟨rfl, fun _ => id, fun none => by rw [none] at finished; cases finished⟩
  · obtain ⟨image, paints⟩ := paints_of_texture made
    exact {
      path := rfl
      kept := fun _ found => by rw [none] at found; cases found
      painted := fun _ => ⟨task, image, bytes, isTask, rfl, paints⟩ }

/-- What holds of every file that is rendered holds of files in their order. -/
theorem forall₂_of_files {relation : TreeFile → TreeFile → Prop} {files done : List TreeFile}
    (each : ∀ file ∈ files, ∀ (done : TreeFile) (run after : Run μ),
      renderer.file file run = (.ok done, after) → relation file done) {run after : Run μ}
    (rendered : renderer.files files run = (.ok done, after)) :
    List.Forall₂ relation files done := by
  induction files generalizing run done with
  | nil =>
    cases rendered
    exact .nil
  | cons next rest ih =>
    obtain ⟨ofNext, ofRest⟩ := List.forall_mem_cons.1 each
    obtain ⟨first, middle, others, firstOk, othersOk, rfl⟩ := files_cons_eq_ok rendered
    exact .cons (ofNext first run middle firstOk) (ih ofRest othersOk)

theorem files_eq_ok {files done : List TreeFile} {run after : Run μ}
    (rendered : renderer.files files run = (.ok done, after)) :
    List.Forall₂ (Rendered renderer) files done :=
  forall₂_of_files (fun _ _ _ _ _ => file_eq_ok) rendered

theorem render_eq_ok {batch done : List TreeFile} {run after : Run μ}
    (rendered : renderer.render batch run = (.ok done, after)) :
    List.Forall₂ (Rendered renderer) batch done := by
  rw [render] at rendered
  split at rendered
  · next filesOk =>
    cases rendered
    exact files_eq_ok filesOk
  · exact files_eq_ok rendered

/-- The run after batches, each with what it is rendered with. A batch may fail. -/
def renderAll : List (Renderer × List TreeFile) → Run μ → Run μ
  | [], run => run
  | (renderer, batch) :: rest, run => renderAll rest (renderer.render batch run).2

/-- A finished file is rendered as it is. -/
theorem file_of_finished {file : TreeFile} (finished : file.bytes?.isSome = true) (run : Run μ) :
    renderer.file file run = (.ok file, run) := by
  obtain ⟨path, contents, task⟩ := file
  cases contents with
  | placeholder => cases finished
  | text value => rfl
  | binary bytes => rfl

end Renderer

end Memories

end Blockwright
