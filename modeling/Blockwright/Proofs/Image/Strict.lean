import Mathlib
import Blockwright.Image.Strict
import Blockwright.Proofs.Image.Sides

/-!
# Strict synthesis is synthesis

No motif divides by zero where there are columns and rows, and no pixel of an image with one pixel
per position lies behind its bytes. Strict synthesis therefore makes the same texture wherever its
bytes can be held, and makes none elsewhere.
-/

namespace Blockwright

/-! ## Computations that have results -/

section Options

variable {α β : Type}

/-- A quotient is handed on unless the divisor is zero. -/
theorem quotient?_bind {number divisor : Nat} (nonzero : divisor ≠ 0) (next : Nat → Option α) :
    (quotient? number divisor >>= next) = next (number / divisor) := by
  rw [quotient?, if_neg nonzero]
  rfl

/-- A remainder is handed on unless the divisor is zero. -/
theorem remainder?_bind {number divisor : Nat} (nonzero : divisor ≠ 0) (next : Nat → Option α) :
    (remainder? number divisor >>= next) = next (number % divisor) := by
  rw [remainder?, if_neg nonzero]
  rfl

/-- A list of computations that have results has their list. -/
theorem mapM_eq_some_map {compute : α → Option β} {result : α → β} {inputs : List α}
    (each : ∀ input ∈ inputs, compute input = some (result input)) :
    inputs.mapM compute = some (inputs.map result) := by
  induction inputs with
  | nil => rfl
  | cons input rest ih =>
    obtain ⟨ofInput, ofRest⟩ := List.forall_mem_cons.1 each
    rw [List.mapM_cons, ofInput, ih ofRest]
    rfl

theorem flatten_mapM {compute : α → Option (List β)} {result : α → List β} {inputs : List α}
    (each : ∀ input ∈ inputs, compute input = some (result input)) :
    (do return (← inputs.mapM compute).flatten) = some (inputs.flatMap result) := by
  rw [mapM_eq_some_map each, List.flatMap_def]
  rfl

theorem foldlM_eq_some {step? : β → α → Option β} {step : β → α → β} {ready : β → Prop}
    (each : ∀ state input, ready state →
      step? state input = some (step state input) ∧ ready (step state input))
    {state : β} (isReady : ready state) (inputs : List α) :
    inputs.foldlM step? state = some (inputs.foldl step state) ∧
      ready (inputs.foldl step state) := by
  induction inputs generalizing state with
  | nil => exact ⟨rfl, isReady⟩
  | cons input rest ih =>
    obtain ⟨result, next⟩ := each state input isReady
    rw [List.foldlM_cons, result, List.foldl_cons]
    exact ih next

theorem flatMap_filter_eq (holds : α → Bool) (make : α → List β) (inputs : List α) :
    (inputs.filter holds).flatMap make =
      inputs.flatMap fun input => if holds input then make input else [] := by
  induction inputs with
  | nil => rfl
  | cons input rest ih =>
    rw [List.flatMap_cons, ← ih, List.filter_cons]
    split <;> rfl

end Options

namespace Motif

variable {width height : Nat}

/-! ## Motifs -/

/-- Noise is handed on unless its bound is zero. -/
theorem noiseBelow?_bind {α : Type} {seeded : UInt32} {x y bound : Nat} (nonzero : bound ≠ 0)
    (next : Nat → Option α) :
    (noiseBelow? seeded x y bound >>= next) = next (noiseBelow seeded x y bound) :=
  remainder?_bind nonzero next

theorem strataStrokes?_eq (width height : Nat) (seed : String) :
    strataStrokes? width height seed = some (strataStrokes width height seed) := by
  rw [strataStrokes?, strataStrokes, flatMap_filter_eq, remainder?_bind (by decide)]
  refine flatten_mapM fun y _ => ?_
  rw [quotient?_bind (by omega), remainder?_bind (by decide), noiseBelow?_bind (by decide)]
  simp only [decide_eq_true_eq]
  split <;> rfl

theorem grainStrokes?_eq (width height : Nat) (seed : String) :
    grainStrokes? width height seed = some (grainStrokes width height seed) := by
  rw [grainStrokes?, grainStrokes, flatMap_filter_eq]
  refine flatten_mapM fun x _ => ?_
  rw [noiseBelow?_bind (by decide)]
  simp only [decide_eq_true_eq]
  split
  · exact mapM_eq_some_map fun y _ => noiseBelow?_bind (by decide) _
  · rfl

theorem flakesStrokes?_eq (width height : Nat) (seed : String) :
    flakesStrokes? width height seed = some (flakesStrokes width height seed) := by
  rw [flakesStrokes?, flakesStrokes]
  refine flatten_mapM fun y _ => ?_
  rw [List.map_eq_flatMap, flatMap_filter_eq]
  refine flatten_mapM fun x _ => ?_
  rw [noiseBelow?_bind (by decide)]
  simp only [decide_eq_true_eq]
  split <;> rfl

/-- A number is half a root, rounded down, exactly if the number under the root lies between the
squares that belong to it and to the next number. -/
theorem sqrt_div_two_eq {distance radius : Nat} :
    Nat.sqrt distance / 2 = radius ↔
      4 * (radius * radius) ≤ distance ∧ distance < 4 * ((radius + 1) * (radius + 1)) := by
  have above : 2 * radius ≤ Nat.sqrt distance ↔ 4 * (radius * radius) ≤ distance := by
    rw [Nat.le_sqrt]
    ring_nf
  have below : Nat.sqrt distance < 2 * (radius + 1) ↔
      distance < 4 * ((radius + 1) * (radius + 1)) := by
    rw [Nat.sqrt_lt]
    ring_nf
  rw [← above, ← below]
  omega

theorem isOnRing_iff {step distance : Nat} :
    isOnRing step width height distance = true ↔
      ∃ k ≤ width + height, step * k = Nat.sqrt distance / 2 := by
  simp only [isOnRing, List.any_eq_true, List.mem_range, Bool.and_eq_true, decide_eq_true_eq,
    ← sqrt_div_two_eq, Nat.lt_succ_iff, eq_comm (a := Nat.sqrt distance / 2)]

theorem sqrt_centreDistance_le {x y : Nat} (column : x < width) (row : y < height) :
    Nat.sqrt (centreDistance width height x y) ≤ width + height := by
  have across : (2 * x + 1 - width : Int).natAbs ≤ width := by omega
  have down : (2 * y + 1 - height : Int).natAbs ≤ height := by omega
  have squares := Nat.add_le_add (Nat.mul_self_le_mul_self across) (Nat.mul_self_le_mul_self down)
  rw [← Nat.lt_succ_iff, Nat.sqrt_lt, centreDistance]
  refine lt_of_le_of_lt squares ?_
  nlinarith

/-- A place lies on a ring exactly if its distance from the centre is a multiple of a step. -/
theorem isOnRing_eq {x y : Nat} (column : x < width) (row : y < height) (step : Nat) :
    isOnRing step width height (centreDistance width height x y) =
      decide (Nat.sqrt (centreDistance width height x y) / 2 % step = 0) := by
  have near := sqrt_centreDistance_le column row
  rw [Bool.eq_iff_iff, isOnRing_iff, decide_eq_true_eq]
  generalize Nat.sqrt (centreDistance width height x y) = root at near
  constructor
  · rintro ⟨k, -, same⟩
    rw [← same, Nat.mul_mod_right]
  · intro multiple
    have small : root / 2 / step ≤ root / 2 := Nat.div_le_self _ _
    exact ⟨root / 2 / step, by omega, Nat.mul_div_cancel' (Nat.dvd_of_mod_eq_zero multiple)⟩

theorem ringsStrokes?_eq (width height : Nat) :
    ringsStrokes? width height = some (ringsStrokes width height) := by
  rw [ringsStrokes?, ringsStrokes]
  refine flatten_mapM fun y isRow => ?_
  rw [List.map_eq_flatMap, flatMap_filter_eq]
  refine flatten_mapM fun x isColumn => ?_
  rw [remainder?_bind (by omega), isOnRing_eq (List.mem_range.1 isColumn) (List.mem_range.1 isRow)]
  simp only [decide_eq_true_eq]
  split <;> rfl

theorem veinStrokes?_eq (width : Nat) (seeded : UInt32) (vein rows x y : Nat) :
    veinStrokes? width seeded vein rows x y = some (veinStrokes width seeded vein rows x y) := by
  induction rows generalizing x y with
  | zero => rfl
  | succ rows ih =>
    rw [veinStrokes?, noiseBelow?_bind (by decide)]
    dsimp only
    rw [ih]
    rfl

theorem veinsStrokes?_eq (wide : width ≠ 0) (height : Nat) (seed : String) :
    veinsStrokes? width height seed = some (veinsStrokes width height seed) := by
  rw [veinsStrokes?, veinsStrokes]
  refine flatten_mapM fun vein _ => ?_
  rw [noiseBelow?_bind wide]
  exact veinStrokes?_eq _ _ _ _ _ _

theorem disks?_eq (wide : width ≠ 0) (high : height ≠ 0) (seed : String) :
    disks? width height seed = some (disks width height seed) := by
  rw [disks?, disks]
  refine mapM_eq_some_map fun i _ => ?_
  rw [remainder?_bind wide, remainder?_bind high, remainder?_bind (by decide)]
  rfl

theorem holesStrokes?_eq (wide : width ≠ 0) (high : height ≠ 0) (seed : String) :
    holesStrokes? width height seed = some (holesStrokes width height seed) := by
  rw [holesStrokes?, disks?_eq wide high]
  rfl

theorem bubblesStrokes?_eq (wide : width ≠ 0) (high : height ≠ 0) (seed : String) :
    bubblesStrokes? width height seed = some (bubblesStrokes width height seed) := by
  rw [bubblesStrokes?, disks?_eq wide high]
  rfl

theorem strokes?_eq (motif : Motif) (wide : width ≠ 0) (high : height ≠ 0) (seed : String) :
    motif.strokes? width height seed = some (motif.strokes width height seed) := by
  cases motif with
  | strata => exact strataStrokes?_eq width height seed
  | grain => exact grainStrokes?_eq width height seed
  | rings => exact ringsStrokes?_eq width height
  | veins => exact veinsStrokes?_eq wide height seed
  | holes => exact holesStrokes?_eq wide high seed
  | bubbles => exact bubblesStrokes?_eq wide high seed
  | flakes => exact flakesStrokes?_eq width height seed

end Motif

namespace Image

/-! ## Pixels -/

variable {image : Image} {x y : Nat}

/-- Whether an image has one pixel per position and few enough bytes to be held. -/
structure Held (image : Image) : Prop where
  sized : image.Sized
  few : 4 * area image.width image.height < capacity

theorem Held.of_sameSides {other : Image} (held : image.Held) (same : other.SameSides image) :
    other.Held :=
  ⟨same.sized held.sized, by rw [same.width, same.height]; exact held.few⟩

/-- The bytes in front of a position are counted in an image that can be held. -/
theorem Held.offset?_eq (held : image.Held) (column : x < image.width.toNat)
    (row : y < image.height.toNat) : image.offset? x y = some (y * image.width.toNat + x) := by
  have inside : y * image.width.toNat + x < area image.width image.height := position_lt column row
  have few := held.few
  rw [offset?, if_pos]
  rw [capacity] at few
  omega

theorem Held.get?_eq (held : image.Held) (column : x < image.width.toNat)
    (row : y < image.height.toNat) : image.get? x y = some (image.get x y) := by
  rw [get?, held.offset?_eq column row]
  exact held.sized.getElem?_position column row

theorem Held.exists_set? (held : image.Held) (column : x < image.width.toNat)
    (row : y < image.height.toNat) (pixel : Pixel) :
    ∃ changed, image.set? x y pixel = some changed ∧ changed.SameSides image ∧
      ∀ index, changed.pixels[index]? =
        if y * image.width.toNat + x = index then some pixel else image.pixels[index]? := by
  have inside : y * image.width.toNat + x < image.pixels.size := by
    rw [held.sized]
    exact position_lt column row
  rw [set?, held.offset?_eq column row]
  dsimp only [Option.bind_eq_bind, Option.bind_some]
  rw [dif_pos inside]
  refine ⟨_, rfl, ⟨rfl, rfl, Array.size_set inside⟩, fun index => ?_⟩
  rw [Array.getElem?_set]

theorem Held.stroke?_eq (held : image.Held) (stroke : Stroke) :
    image.stroke? stroke = some (image.stroke stroke) := by
  rw [stroke?, Image.stroke, modify]
  split
  · next inside =>
    obtain ⟨left, top, right, bottom⟩ := inside
    have column : stroke.x.toNat < image.width.toNat := by omega
    have row : stroke.y.toNat < image.height.toNat := by omega
    obtain ⟨changed, isChanged, same, pixels⟩ :=
      held.exists_set? column row ((image.get stroke.x.toNat stroke.y.toNat).shade stroke.amount)
    dsimp only
    rw [held.get?_eq column row]
    refine isChanged.trans (congrArg some (ext_getElem? ?_ fun index => ?_))
    · exact ⟨same.width, same.height, same.size.trans (Array.size_modify ..).symm⟩
    · rw [pixels, Array.getElem?_modify]
      split
      · next here => rw [← here, held.sized.getElem?_position column row]; rfl
      · rfl
  · rfl

theorem Held.foldlM_stroke? (held : image.Held) (strokes : List Stroke) :
    strokes.foldlM stroke? image = some (strokes.foldl stroke image) :=
  (foldlM_eq_some (fun image stroke (held : image.Held) =>
    ⟨held.stroke?_eq stroke, held.of_sameSides (image.sameSides_modify _ _ _)⟩) held strokes).1

theorem Held.stamp?_eq (held : image.Held) (wide : image.width.toNat ≠ 0)
    (high : image.height.toNat ≠ 0) (seed : String) (motif : Motif) :
    image.stamp? seed motif = some (image.stamp seed motif) := by
  rw [stamp?, motif.strokes?_eq wide high]
  exact held.foldlM_stroke? _

theorem Held.ensureVaried?_eq (held : image.Held) (wide : image.width.toNat ≠ 0)
    (high : image.height.toNat ≠ 0) : image.ensureVaried? = some image.ensureVaried := by
  rw [ensureVaried?, held.get?_eq (by omega) (by omega), ensureVaried]
  dsimp only [Option.bind_eq_bind, Option.bind_some]
  split
  · exact held.stroke?_eq _
  · rfl

/-! ## Noise -/

section Filling

variable {pixel? : Nat → Nat → Option Pixel} {pixel : Nat → Nat → Pixel} {count : Nat}

/-- Whether so many pixels of an image are as they are told by their positions. -/
def FilledTo (pixel : Nat → Nat → Pixel) (count : Nat) (image : Image) : Prop :=
  ∀ index < count, image.pixels[index]? =
    some (pixel (index % image.width.toNat) (index / image.width.toNat))

theorem FilledTo.fillRow? (told : ∀ x y, pixel? x y = some (pixel x y)) (held : image.Held)
    (row : y < image.height.toNat) {columns : Nat} (all : x + columns = image.width.toNat)
    (filled : image.FilledTo pixel (y * image.width.toNat + x)) :
    ∃ after, Image.fillRow? pixel? y columns x image = some after ∧ after.SameSides image ∧
      after.FilledTo pixel ((y + 1) * image.width.toNat) := by
  induction columns generalizing x image with
  | zero =>
    obtain rfl : x = image.width.toNat := all
    exact ⟨image, rfl, .refl image, by rwa [Nat.succ_mul]⟩
  | succ columns ih =>
    have column : x < image.width.toNat := by omega
    obtain ⟨next, isNext, same, pixels⟩ := held.exists_set? column row (pixel x y)
    have further : next.FilledTo pixel (y * next.width.toNat + (x + 1)) := by
      intro index early
      rw [same.width] at early ⊢
      rw [pixels]
      split
      · next here => rw [← here, position_mod column, position_div column]
      · exact filled index (by omega)
    obtain ⟨after, isAfter, others, rest⟩ := ih (held.of_sameSides same) (same.height ▸ row)
      (by rw [same.width]; omega) further
    rw [same.width] at rest
    rw [Image.fillRow?, told]
    dsimp only [Option.bind_eq_bind, Option.bind_some]
    rw [isNext]
    exact ⟨after, isAfter, others.trans same, rest⟩

theorem FilledTo.fill? (told : ∀ x y, pixel? x y = some (pixel x y)) (held : image.Held)
    {rows : Nat} (all : y + rows = image.height.toNat)
    (filled : image.FilledTo pixel (y * image.width.toNat)) :
    ∃ after, Image.fill? pixel? rows y image = some after ∧ after.SameSides image ∧
      after.FilledTo pixel (image.height.toNat * image.width.toNat) := by
  induction rows generalizing y image with
  | zero =>
    obtain rfl : y = image.height.toNat := all
    exact ⟨image, rfl, .refl image, filled⟩
  | succ rows ih =>
    have row : y < image.height.toNat := by omega
    obtain ⟨next, isNext, same, further⟩ :=
      FilledTo.fillRow? told held row (x := 0) (Nat.zero_add _) (by rwa [Nat.add_zero])
    obtain ⟨after, isAfter, others, rest⟩ := ih (y := y + 1) (held.of_sameSides same)
      (by rw [same.height]; omega) (by rwa [same.width])
    rw [same.width, same.height] at rest
    rw [Image.fill?, isNext]
    exact ⟨after, isAfter, others.trans same, rest⟩

end Filling

section Synthesis

variable {width height : UInt32}

theorem exists_blank? (few : 4 * area width height < capacity) :
    ∃ image, blank? width height = some image ∧ image.width = width ∧ image.height = height ∧
      image.Held := by
  have count : byteCount? width height = some (4 * area width height) :=
    byteCount?_eq_some.2 ⟨rfl, few.trans (by decide)⟩
  refine ⟨_, by rw [blank?, count]; exact if_pos few, rfl, rfl, ?_, few⟩
  rw [Sized, Array.size_replicate, Nat.mul_div_cancel_left _ (by decide)]

theorem noise?_eq (few : 4 * area width height < capacity) (seed : String) (base : Color)
    (amplitude : Nat) :
    noise? seed base amplitude width height = some (noise seed base amplitude width height) := by
  obtain ⟨image, isBlank, rfl, rfl, held⟩ := exists_blank? few
  let shaded := fun value : Nat => Pixel.solid (base.shade (value - amplitude))
  let pixel := fun x y =>
    shaded (Motif.noiseBelow (Fnv.seeded seed) x y (2 * amplitude + 1))
  have told : ∀ x y, (do
      let value ← Motif.noiseBelow? (Fnv.seeded seed) x y (2 * amplitude + 1)
      return shaded value) = some (pixel x y) :=
    fun x y => Motif.noiseBelow?_bind (Nat.succ_ne_zero _) _
  obtain ⟨after, isAfter, same, filled⟩ :=
    FilledTo.fill? (y := 0) told held (Nat.zero_add _) (fun index early => by omega)
  have sides : after.SameSides (ofFn image.width image.height pixel) :=
    ⟨same.width, same.height, same.size.trans (held.sized.trans (Array.size_ofFn).symm)⟩
  rw [noise?, isBlank]
  have isNoise : after = ofFn image.width image.height pixel := by
    refine ext_getElem? sides fun index => ?_
    rw [getElem?_ofFn]
    split
    · next inside => rw [filled index (by rwa [Nat.mul_comm]), same.width]
    · next outside => exact Array.getElem?_eq_none (by rw [same.size, held.sized]; omega)
  exact isAfter.trans (congrArg some isNoise)

theorem noise?_eq_none (many : capacity ≤ 4 * area width height) (seed : String) (base : Color)
    (amplitude : Nat) : noise? seed base amplitude width height = none := by
  have noImage : blank? width height = none := by
    rw [blank?]
    cases counted : byteCount? width height with
    | none => rfl
    | some count =>
      obtain ⟨rfl, -⟩ := byteCount?_eq_some.1 counted
      exact if_neg (Nat.not_lt.2 many)
  rw [noise?, noImage]
  rfl

/-- Strict synthesis makes the texture exactly where its bytes can be held. -/
theorem synthesize?_eq (wide : width.toNat ≠ 0) (high : height.toNat ≠ 0) (seed : String)
    (profile : Profile) (hint : Option Color) :
    synthesize? seed profile hint width height =
      if 4 * area width height < capacity then
        some (synthesize seed profile hint width height)
      else none := by
  rw [synthesize?]
  split
  · next few =>
    let plain := noise seed (hint.getD profile.material.baseColor) profile.amplitude width height
    let ready := fun image : Image => image.Held ∧ image.width = width ∧ image.height = height
    have stamps : ∀ image motif, ready image →
        image.stamp? seed motif = some (image.stamp seed motif) ∧
          ready (image.stamp seed motif) := by
      rintro image motif ⟨held, rfl, rfl⟩
      have same := sameSides_stamp seed image motif
      exact ⟨held.stamp?_eq wide high seed motif, held.of_sameSides same, same.width, same.height⟩
    have plainReady : ready plain := ⟨⟨sized_ofFn width height _, few⟩, rfl, rfl⟩
    obtain ⟨stamped, held, isWidth, isHeight⟩ :=
      foldlM_eq_some stamps plainReady (Motif.sort profile.motifs)
    rw [noise?_eq few]
    dsimp only [Option.bind_eq_bind, Option.bind_some]
    rw [stamped]
    exact held.ensureVaried?_eq (by rwa [isWidth]) (by rwa [isHeight])
  · next many => rw [noise?_eq_none (Nat.le_of_not_lt many)]; rfl

end Synthesis

/-! ## Sides -/

section Sides

variable {after : Image} {width height : UInt32}

theorem SameSides.of_foldlM {α : Type} {step? : Image → α → Option Image}
    (each : ∀ {image next after}, step? image next = some after → after.SameSides image)
    {steps : List α} (made : steps.foldlM step? image = some after) : after.SameSides image := by
  induction steps generalizing image with
  | nil =>
    cases made
    exact .refl _
  | cons next rest ih =>
    obtain ⟨middle, first, others⟩ := Option.bind_eq_some_iff.1 made
    exact (ih others).trans (each first)

theorem SameSides.of_set? {pixel : Pixel} (made : image.set? x y pixel = some after) :
    after.SameSides image := by
  obtain ⟨offset, -, made⟩ := Option.bind_eq_some_iff.1 made
  split at made
  · next inside =>
    cases made
    exact ⟨rfl, rfl, Array.size_set inside⟩
  · cases made

theorem SameSides.of_fillRow? {pixel : Nat → Nat → Option Pixel} {columns : Nat}
    (made : fillRow? pixel y columns x image = some after) : after.SameSides image := by
  induction columns generalizing x image with
  | zero =>
    cases made
    exact .refl _
  | succ columns ih =>
    obtain ⟨value, -, made⟩ := Option.bind_eq_some_iff.1 made
    obtain ⟨next, first, others⟩ := Option.bind_eq_some_iff.1 made
    exact (ih others).trans (.of_set? first)

theorem SameSides.of_fill? {pixel : Nat → Nat → Option Pixel} {rows : Nat}
    (made : fill? pixel rows y image = some after) : after.SameSides image := by
  induction rows generalizing y image with
  | zero =>
    cases made
    exact .refl _
  | succ rows ih =>
    obtain ⟨next, first, others⟩ := Option.bind_eq_some_iff.1 made
    exact (ih others).trans (.of_fillRow? first)

theorem SameSides.of_stroke? {stroke : Stroke} (made : image.stroke? stroke = some after) :
    after.SameSides image := by
  rw [stroke?] at made
  split at made
  · obtain ⟨pixel, -, made⟩ := Option.bind_eq_some_iff.1 made
    exact .of_set? made
  · cases made
    exact .refl _

theorem SameSides.of_stamp? {seed : String} {motif : Motif}
    (made : image.stamp? seed motif = some after) : after.SameSides image := by
  obtain ⟨strokes, -, made⟩ := Option.bind_eq_some_iff.1 made
  exact .of_foldlM .of_stroke? made

theorem SameSides.of_ensureVaried? (made : image.ensureVaried? = some after) :
    after.SameSides image := by
  obtain ⟨first, -, made⟩ := Option.bind_eq_some_iff.1 made
  split at made
  · exact .of_stroke? made
  · cases made
    exact .refl _

/-- Strict synthesis makes an image with the sides that it is asked for. -/
theorem synthesize?_sides {seed : String} {profile : Profile} {hint : Option Color}
    (made : synthesize? seed profile hint width height = some image) :
    image.width = width ∧ image.height = height := by
  obtain ⟨plain, isPlain, made⟩ := Option.bind_eq_some_iff.1 made
  obtain ⟨stamped, isStamped, made⟩ := Option.bind_eq_some_iff.1 made
  obtain ⟨blank, isBlank, filled⟩ := Option.bind_eq_some_iff.1 isPlain
  have same : image.SameSides blank := (SameSides.of_ensureVaried? made).trans
    ((SameSides.of_foldlM .of_stamp? isStamped).trans (.of_fill? filled))
  obtain ⟨count, -, isBlank⟩ := Option.bind_eq_some_iff.1 isBlank
  split at isBlank
  · cases isBlank
    exact ⟨same.width, same.height⟩
  · cases isBlank

end Sides

end Image

end Blockwright
