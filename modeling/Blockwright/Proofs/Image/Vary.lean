import Mathlib.Data.List.Nodup
import Blockwright.Proofs.Image.Sides

/-!
# What varying changes

A key chooses one pixel that is seen. It and the seen pixels that share an edge with it move by a
few steps towards the middle of the scale; everything else stays. The steps are too few to leave
the scale and too many to go unnoticed, so that an image changes exactly if something is seen on it.
-/

namespace Blockwright

/-! ## Moved pixels -/

namespace Pixel

variable {pixel before : Pixel}

/-- Whether a channel is another one lowered by some steps if it is bright, and raised by them
otherwise. Nothing is lost at the ends of the scale. -/
def MovedChannel (steps : Nat) (channel before : UInt8) : Prop :=
  if 127 < before.toNat then channel.toNat + steps = before.toNat
  else channel.toNat = before.toNat + steps

/-- Whether a pixel is another one with every channel moved by some steps. -/
structure Moved (steps : Nat) (pixel before : Pixel) : Prop where
  red : MovedChannel steps pixel.red before.red
  green : MovedChannel steps pixel.green before.green
  blue : MovedChannel steps pixel.blue before.blue
  alpha : pixel.alpha = before.alpha

theorem movedChannel_nudgeChannel {amount : UInt8} (little : amount.toNat ≤ 8) (channel : UInt8) :
    MovedChannel amount.toNat (nudgeChannel amount channel) channel := by
  have bound := channel.toNat_lt
  rw [MovedChannel, nudgeChannel]
  by_cases bright : 127 < channel
  · have high : 127 < channel.toNat := UInt8.lt_iff_toNat_lt.1 bright
    have less : amount ≤ channel := UInt8.le_iff_toNat_le.2 (by omega)
    rw [if_pos high, if_pos bright, UInt8.toNat_sub_of_le _ _ less]
    omega
  · have low : ¬127 < channel.toNat := fun high => bright (UInt8.lt_iff_toNat_lt.2 high)
    rw [if_neg low, if_neg bright, UInt8.toNat_add, Nat.mod_eq_of_lt (by omega)]

theorem moved_nudge {amount : UInt8} (little : amount.toNat ≤ 8)
    (visible : pixel.isVisible = true) : (pixel.nudge amount).Moved amount.toNat pixel := by
  rw [nudge, if_pos visible]
  exact ⟨movedChannel_nudgeChannel little _, movedChannel_nudgeChannel little _,
    movedChannel_nudgeChannel little _, rfl⟩

theorem Moved.ne {steps : Nat} (moved : pixel.Moved steps before) (some : 0 < steps) :
    pixel ≠ before := by
  rintro rfl
  have red := moved.red
  rw [MovedChannel] at red
  split at red <;> omega

theorem isVisible_iff : pixel.isVisible = true ↔ pixel.alpha ≠ 0 := bne_iff_ne

end Pixel

namespace Image

variable {image : Image} {x y : Nat}

/-! ## Changed positions -/

theorem Sized.get_modify (sized : image.Sized) (column : x < image.width.toNat)
    (row : y < image.height.toNat) (place : Int × Int) (change : Pixel → Pixel) :
    (image.modify place.1 place.2 change).get x y =
      if place = (↑x, ↑y) then change (image.get x y) else image.get x y := by
  have isBefore := sized.getElem?_position column row
  have isAfter := (sized.modify place.1 place.2 change).getElem?_position (x := x) (y := y)
    (by rwa [width_modify]) (by rwa [height_modify])
  rw [width_modify] at isAfter
  obtain ⟨across, down⟩ := place
  refine Option.some_inj.1 (isAfter.symm.trans ?_)
  rw [Image.modify]
  split
  · next inside =>
    obtain ⟨left, top, right, -⟩ := inside
    lift across to Nat using left
    lift down to Nat using top
    have within : across < image.width.toNat := Int.ofNat_lt.1 right
    have sameIndex : down * image.width.toNat + across = y * image.width.toNat + x ↔
        ((across : Int), (down : Int)) = (↑x, ↑y) := by
      rw [position_inj column within, Prod.mk.injEq, Int.ofNat_inj, Int.ofNat_inj]
    dsimp only [Int.toNat_natCast]
    rw [Array.getElem?_modify, isBefore]
    simp only [sameIndex]
    split <;> rfl
  · next outside =>
    rw [if_neg, isBefore]
    rintro ⟨rfl, rfl⟩
    omega

theorem Sized.get_foldl_modify (sized : image.Sized) (column : x < image.width.toNat)
    (row : y < image.height.toNat) {places : List (Int × Int)} (different : places.Nodup)
    (change : Pixel → Pixel) :
    (places.foldl (fun result place => result.modify place.1 place.2 change) image).get x y =
      if ((x : Int), (y : Int)) ∈ places then change (image.get x y) else image.get x y := by
  induction places generalizing image with
  | nil => rw [List.foldl_nil, if_neg List.not_mem_nil]
  | cons place rest ih =>
    obtain ⟨fresh, others⟩ := List.nodup_cons.1 different
    rw [List.foldl_cons, ih (sized.modify place.1 place.2 change) (by rwa [width_modify])
      (by rwa [height_modify]) others, sized.get_modify column row place change]
    by_cases here : place = (↑x, ↑y)
    · subst here
      rw [if_neg fresh, if_pos rfl, if_pos List.mem_cons_self]
    · rw [if_neg here]
      simp only [List.mem_cons, eq_comm (a := ((x : Int), (y : Int))) (b := place), here, false_or]

/-- A position and its neighbours are different. -/
theorem nodup_around (x y : Int) :
    [(x, y), (x - 1, y), (x + 1, y), (x, y - 1), (x, y + 1)].Nodup := by
  simp
  omega

/-- Whether a position is another one or shares an edge with it. -/
def Touches (column row x y : Nat) : Prop :=
  (x = column ∧ (y = row ∨ y + 1 = row ∨ y = row + 1)) ∨
    (y = row ∧ (x + 1 = column ∨ x = column + 1))

instance (column row x y : Nat) : Decidable (Touches column row x y) :=
  inferInstanceAs (Decidable (_ ∨ _))

theorem mem_around_iff {column row : Nat} :
    ((x : Int), (y : Int)) ∈ [((column : Int), (row : Int)), (column - 1, row), (column + 1, row),
      (column, row - 1), (column, row + 1)] ↔ Touches column row x y := by
  simp only [List.mem_cons, List.not_mem_nil, or_false, Prod.mk.injEq, Touches]
  omega

theorem Sized.get_nudgeAround (sized : image.Sized) (inside : x < image.width.toNat)
    (within : y < image.height.toNat) (column row : Nat) (amount : UInt8) :
    (image.nudgeAround column row amount).get x y =
      if Touches column row x y then (image.get x y).nudge amount else image.get x y := by
  rw [nudgeAround, sized.get_foldl_modify inside within (nodup_around _ _)]
  simp only [mem_around_iff]

/-! ## The chosen pixel -/

theorem le_nudgeAmount (hash : UInt32) : 3 ≤ (nudgeAmount hash).toNat := by
  rw [nudgeAmount, UInt8.toNat_ofNat']
  omega

theorem nudgeAmount_le (hash : UInt32) : (nudgeAmount hash).toNat ≤ 8 := by
  rw [nudgeAmount, UInt8.toNat_ofNat']
  omega

theorem mem_visible_iff (few : area image.width image.height < UInt32.size) {index : Nat} :
    index ∈ image.visible ↔ index < area image.width image.height ∧
      (image.pixels.getD index Pixel.clear).alpha ≠ 0 := by
  rw [visible, List.mem_filter, List.mem_range, Pixel.isVisible_iff, pixelCount,
    UInt32.toNat_ofNat', Nat.mod_eq_of_lt few]

/-- Nothing is to be chosen from exactly if nothing is seen. -/
theorem Sized.visible_eq_nil_iff (sized : image.Sized)
    (few : area image.width image.height < UInt32.size) :
    image.visible = [] ↔ ∀ pixel ∈ image.pixels, pixel.alpha = 0 := by
  simp only [List.eq_nil_iff_forall_not_mem, mem_visible_iff few, not_and, not_not]
  rw [← sized]
  constructor
  · intro unseen pixel isPixel
    obtain ⟨index, inside, rfl⟩ := Array.mem_iff_getElem.1 isPixel
    simpa [Array.getD, inside] using unseen index inside
  · intro unseen index inside
    simpa [Array.getD, inside] using unseen _ (Array.getElem_mem inside)

theorem Sized.exists_chosen (sized : image.Sized)
    (few : area image.width image.height < UInt32.size)
    (seen : ∃ pixel ∈ image.pixels, pixel.alpha ≠ 0) (key : String) :
    ∃ column < image.width.toNat, ∃ row < image.height.toNat,
      (image.get column row).alpha ≠ 0 ∧
        image.vary key = image.nudgeAround column row (nudgeAmount (Fnv.hash key)) := by
  have some : image.visible ≠ [] := by
    rw [Ne, sized.visible_eq_nil_iff few]
    push Not
    exact seen
  have early := Nat.mod_lt (Fnv.hash key).toNat (List.length_pos_iff.2 some)
  have chosen := List.getElem?_eq_getElem early
  generalize image.visible[(Fnv.hash key).toNat % image.visible.length] = index at chosen
  obtain ⟨inside, isSeen⟩ := (mem_visible_iff few).1 (List.mem_of_getElem? chosen)
  have wide : 0 < image.width.toNat := Nat.pos_of_mul_pos_right (Nat.zero_lt_of_lt inside)
  refine ⟨index % image.width.toNat, Nat.mod_lt _ wide, index / image.width.toNat,
    Nat.div_lt_of_lt_mul inside, ?_, ?_⟩
  · rwa [get, Nat.div_add_mod']
  · rw [vary, chosen]

/-! ## Varied images -/

/-- Whether an image is another one moved by some steps around a position that is seen: the two
differ at the position and at the seen neighbours of it, and nowhere else. -/
structure MovedAround (column row steps : Nat) (image before : Image) : Prop
    extends SameSides image before where
  inside : column < before.width.toNat
  within : row < before.height.toNat
  seen : (before.get column row).alpha ≠ 0
  atLeast : 3 ≤ steps
  atMost : steps ≤ 8
  differs : ∀ x < before.width.toNat, ∀ y < before.height.toNat,
    image.get x y ≠ before.get x y ↔ Touches column row x y ∧ (before.get x y).alpha ≠ 0
  moved : ∀ x < before.width.toNat, ∀ y < before.height.toNat,
    image.get x y ≠ before.get x y → (image.get x y).Moved steps (before.get x y)

theorem Sized.nudgeAround_cases (sized : image.Sized) (isColumn : x < image.width.toNat)
    (isRow : y < image.height.toNat) (column row : Nat) (hash : UInt32) :
    let after := (image.nudgeAround column row (nudgeAmount hash)).get x y
    (Touches column row x y ∧ (image.get x y).alpha ≠ 0) ∧
        after.Moved (nudgeAmount hash).toNat (image.get x y) ∨
      ¬(Touches column row x y ∧ (image.get x y).alpha ≠ 0) ∧ after = image.get x y := by
  dsimp only
  rw [sized.get_nudgeAround isColumn isRow]
  by_cases touches : Touches column row x y
  · rw [if_pos touches]
    by_cases isClear : (image.get x y).alpha = 0
    · refine .inr ⟨fun both => both.2 isClear, ?_⟩
      rw [Pixel.nudge, if_neg (by rwa [Pixel.isVisible_iff, not_not])]
    · exact .inl ⟨⟨touches, isClear⟩,
        Pixel.moved_nudge (nudgeAmount_le hash) (Pixel.isVisible_iff.2 isClear)⟩
  · rw [if_neg touches]
    exact .inr ⟨fun both => touches both.1, rfl⟩

theorem Sized.movedAround_nudgeAround (sized : image.Sized) {column row : Nat}
    (inside : column < image.width.toNat) (within : row < image.height.toNat)
    (seen : (image.get column row).alpha ≠ 0) (hash : UInt32) :
    MovedAround column row (nudgeAmount hash).toNat
      (image.nudgeAround column row (nudgeAmount hash)) image where
  toSameSides :=
    .foldl (fun image (place : Int × Int) => image.sameSides_modify place.1 place.2 _) _ image
  inside := inside
  within := within
  seen := seen
  atLeast := le_nudgeAmount hash
  atMost := nudgeAmount_le hash
  differs x isColumn y isRow := by
    have much := le_nudgeAmount hash
    rcases sized.nudgeAround_cases isColumn isRow column row hash with ⟨near, moved⟩ | ⟨far, same⟩
    · exact iff_of_true (moved.ne (by omega)) near
    · exact iff_of_false (not_not_intro same) far
  moved x isColumn y isRow different := by
    rcases sized.nudgeAround_cases isColumn isRow column row hash with ⟨-, moved⟩ | ⟨-, same⟩
    · exact moved
    · exact absurd same different

/-- An image on which nothing is seen stays as it is. Any other one is moved, without leaving the
scale, around one of its seen pixels, and so is another one. -/
theorem vary_moves (image : Image) (key : String) (sized : image.Sized)
    (few : area image.width image.height < UInt32.size) :
    ((∀ pixel ∈ image.pixels, pixel.alpha = 0) → image.vary key = image) ∧
      ((∃ pixel ∈ image.pixels, pixel.alpha ≠ 0) →
        ∃ column row steps, MovedAround column row steps (image.vary key) image) ∧
      (image.vary key ≠ image ↔ ∃ pixel ∈ image.pixels, pixel.alpha ≠ 0) := by
  have stays : (∀ pixel ∈ image.pixels, pixel.alpha = 0) → image.vary key = image := by
    intro unseen
    have nothing := (sized.visible_eq_nil_iff few).2 unseen
    rw [vary, nothing]
    rfl
  have moves : (∃ pixel ∈ image.pixels, pixel.alpha ≠ 0) →
      ∃ column row steps, MovedAround column row steps (image.vary key) image := by
    intro seen
    obtain ⟨column, inside, row, within, isSeen, varied⟩ := sized.exists_chosen few seen key
    rw [varied]
    exact ⟨column, row, _, sized.movedAround_nudgeAround inside within isSeen _⟩
  refine ⟨stays, moves, ?_, ?_⟩
  · intro changed
    by_contra unseen
    push Not at unseen
    exact changed (stays unseen)
  · intro seen same
    obtain ⟨column, row, steps, moved⟩ := moves seen
    exact (moved.differs column moved.inside row moved.within).2 ⟨.inl ⟨rfl, .inl rfl⟩, moved.seen⟩
      (by rw [same])

/-- Two white pixels in a row with a clear one between them. -/
def gap : Image :=
  ofFn 3 1 fun x _ =>
    if x = 1 then Pixel.clear else Pixel.solid { red := 255, green := 255, blue := 255 }

/-- A pixel beside the gap moves; the pixel in the gap, if it were alone, would not. -/
theorem vary_moves_gap :
    (∃ column row steps, MovedAround column row steps (gap.vary "a") gap) ∧
      gap.vary "a" ≠ gap ∧
      (ofFn 1 1 fun _ _ => Pixel.clear).vary "a" = ofFn 1 1 fun _ _ => Pixel.clear := by
  have seen : ∃ pixel ∈ gap.pixels, pixel.alpha ≠ 0 := by decide
  obtain ⟨-, moves, changes⟩ := vary_moves gap "a" (by decide) (by decide)
  obtain ⟨stays, -⟩ := vary_moves (ofFn 1 1 fun _ _ => Pixel.clear) "a" (by decide) (by decide)
  exact ⟨moves seen, changes.2 seen, stays (by decide)⟩

end Image

end Blockwright
