import Blockwright.Proofs.Image.Cells
import Blockwright.Theme.Gallery

/-!
# Searching for a look

Theming tries one candidate after the other and takes the first one that is accepted, or else the
last one. Only the counts of the gallery change before that. The search stops without a texture
where a candidate has no look, which takes a side of `2 ^ 30` places or more, and where a count
would outgrow its word.
-/

namespace Blockwright

namespace Image

variable {image other : Image}

/-- An image has a look exactly if its sides are shorter than `2 ^ 30`. -/
theorem isSome_look?_iff :
    image.look?.isSome = true ↔ image.width.toNat < 2 ^ 30 ∧ image.height.toNat < 2 ^ 30 := by
  rw [← Fingerprint.isSome_ofImage?_iff, look?]
  cases Fingerprint.ofImage? image <;> simp

theorem SameSides.isSome_look?_eq (same : image.SameSides other) :
    image.look?.isSome = other.look?.isSome := by
  rw [Bool.eq_iff_iff, isSome_look?_iff, isSome_look?_iff, same.width, same.height]

end Image

namespace Gallery

variable {gallery next : Gallery}

theorem collide?_eq_some :
    gallery.collide? = some next ↔ ∃ collisions : UInt32,
      collisions.toNat = gallery.collisions.toNat + 1 ∧ next = { gallery with collisions } := by
  have one : (1 : UInt32).toNat = 1 := rfl
  simp [collide?, Option.bind_eq_some_iff, count?_eq_some, one, eq_comm (a := next)]

theorem exhaust?_eq_some :
    gallery.exhaust? = some next ↔ ∃ exhausted : UInt32,
      exhausted.toNat = gallery.exhausted.toNat + 1 ∧ next = { gallery with exhausted } := by
  have one : (1 : UInt32).toNat = 1 := rfl
  simp [exhaust?, Option.bind_eq_some_iff, count?_eq_some, one, eq_comm (a := next)]

theorem exists_collide? (room : gallery.collisions.toNat + 1 < UInt32.size) :
    ∃ collisions : UInt32, collisions.toNat = gallery.collisions.toNat + 1 ∧
      gallery.collide? = some { gallery with collisions } :=
  have counted := UInt32.toNat_ofNat_of_lt' room
  ⟨_, counted, collide?_eq_some.2 ⟨_, counted, rfl⟩⟩

end Gallery

namespace Theme

/-! ## Candidates that are rejected -/

/-- Whether an image has a look that the gallery does not accept. -/
def Rejects (gallery : Gallery) (owner : String) (image : Image) : Prop :=
  ∃ look, image.look? = some look ∧ gallery.accepts look owner = false

/-- Whether all candidates from a first one up to another one are rejected. -/
def RejectsUpTo (candidate : Nat → Image) (owner : String) (gallery : Gallery) (first last : Nat) :
    Prop :=
  ∀ attempt, first ≤ attempt → attempt < last → Rejects gallery owner (candidate attempt)

variable {candidate : Nat → Image} {owner : String} {gallery after : Gallery} {themed : Themed}
  {look : Look} {remaining first last : Nat}

theorem RejectsUpTo.refl : RejectsUpTo candidate owner gallery first first :=
  fun _ late early => absurd early (Nat.not_lt.2 late)

/-- A candidate that is rejected may stand in front of others. -/
theorem RejectsUpTo.cons (rejected : Rejects gallery owner (candidate first))
    (others : RejectsUpTo candidate owner gallery (first + 1) last) :
    RejectsUpTo candidate owner gallery first last := by
  intro attempt late early
  rcases Nat.eq_or_lt_of_le late with rfl | later
  · exact rejected
  · exact others attempt later early

theorem RejectsUpTo.tail (rejected : RejectsUpTo candidate owner gallery first last) :
    RejectsUpTo candidate owner gallery (first + 1) last :=
  fun attempt late => rejected attempt (Nat.le_of_succ_le late)

theorem exists_first_open (notAll : ¬ RejectsUpTo candidate owner gallery first last) :
    ∃ attempt < last, first ≤ attempt ∧ RejectsUpTo candidate owner gallery first attempt ∧
      ¬ Rejects gallery owner (candidate attempt) := by
  classical
  simp only [RejectsUpTo, not_forall] at notAll
  obtain ⟨attempt, late, early, isOpen⟩ := notAll
  have found : ∃ attempt, first ≤ attempt ∧ ¬ Rejects gallery owner (candidate attempt) :=
    ⟨attempt, late, isOpen⟩
  obtain ⟨isLate, isFirst⟩ := Nat.find_spec found
  refine ⟨Nat.find found, (Nat.find_min' found ⟨late, isOpen⟩).trans_lt early, isLate,
    fun other isLater before => ?_, isFirst⟩
  by_contra notRejected
  exact Nat.find_min found before ⟨isLater, notRejected⟩

theorem not_rejects (isLook : (candidate last).look? = some look)
    (accepted : gallery.accepts look owner = true) :
    ¬ Rejects gallery owner (candidate last) := by
  rintro ⟨other, isOther, rejected⟩
  obtain rfl := Option.some.inj (isLook.symm.trans isOther)
  rw [accepted] at rejected
  cases rejected

/-! ## Steps of the search -/

/-- A search that starts at a candidate that is accepted ends there, however many may follow. -/
theorem search?_of_accepts (remaining : Nat) (isLook : (candidate first).look? = some look)
    (accepted : gallery.accepts look owner = true) :
    search? candidate owner remaining first gallery =
      some ({ image := candidate first, attempts := first, unique := true },
        gallery.record look owner) := by
  rw [search?]
  simp [isLook, accepted]

/-- The last candidate is taken although it is rejected. -/
theorem search?_zero (isLook : (candidate first).look? = some look)
    (rejected : gallery.accepts look owner = false) :
    search? candidate owner 0 first gallery =
      (gallery.collide? >>= Gallery.exhaust?).map fun full =>
        ({ image := candidate first, attempts := first, unique := false },
          full.record look owner) := by
  rw [search?]
  simp [isLook, rejected, Option.bind_assoc, Option.map_eq_bind]

theorem search?_succ (remaining : Nat) (isLook : (candidate first).look? = some look)
    (rejected : gallery.accepts look owner = false) :
    search? candidate owner (remaining + 1) first gallery =
      gallery.collide? >>= search? candidate owner remaining (first + 1) := by
  rw [search?]
  simp [isLook, rejected]

theorem search?_of_look?_eq_none (remaining : Nat) (missing : (candidate first).look? = none) :
    search? candidate owner remaining first gallery = none := by
  rw [search?]
  simp [missing]

/-! ## Ends of the search -/

/-- How a search ends: with the first candidate that is accepted, or with the last one if none is.
Every candidate that is rejected is counted as a collision. -/
inductive Ends (candidate : Nat → Image) (owner : String) (remaining first : Nat)
    (gallery : Gallery) : Themed → Gallery → Prop where
  | accepted {last : Nat} {look : Look} {collisions : UInt32} (late : first ≤ last)
    (few : last ≤ first + remaining) (rejected : RejectsUpTo candidate owner gallery first last)
    (isLook : (candidate last).look? = some look) (accepted : gallery.accepts look owner = true)
    (collided : collisions.toNat = gallery.collisions.toNat + (last - first)) :
    Ends candidate owner remaining first gallery
      { image := candidate last, attempts := last, unique := true }
      (Gallery.record { gallery with collisions } look owner)
  | exhausted {look : Look} {collisions exhausted : UInt32}
    (rejected : RejectsUpTo candidate owner gallery first (first + remaining + 1))
    (isLook : (candidate (first + remaining)).look? = some look)
    (collided : collisions.toNat = gallery.collisions.toNat + (remaining + 1))
    (counted : exhausted.toNat = gallery.exhausted.toNat + 1) :
    Ends candidate owner remaining first gallery
      { image := candidate (first + remaining), attempts := first + remaining, unique := false }
      (Gallery.record { gallery with collisions, exhausted } look owner)

/-- The first candidate of a search that ends has a look. -/
theorem Ends.isSome_look? (ends : Ends candidate owner remaining first gallery themed after) :
    (candidate first).look?.isSome = true := by
  have ofRejected {last : Nat} (rejected : RejectsUpTo candidate owner gallery first last)
      (later : first < last) : (candidate first).look?.isSome = true := by
    obtain ⟨look, isLook, -⟩ := rejected first le_rfl later
    rw [isLook]
    rfl
  rcases ends with ⟨late, -, rejected, isLook, -, -⟩ | ⟨rejected, -, -, -⟩
  · rcases Nat.eq_or_lt_of_le late with rfl | later
    · rw [isLook]
      rfl
    · exact ofRejected rejected later
  · exact ofRejected rejected (by omega)

theorem ends_of_accepts (isLook : (candidate first).look? = some look)
    (accepted : gallery.accepts look owner = true) :
    Ends candidate owner remaining first gallery themed after ↔
      ({ image := candidate first, attempts := first, unique := true },
        gallery.record look owner) = (themed, after) := by
  have open_ := not_rejects isLook accepted
  constructor
  · rintro (⟨late, -, rejected, isOther, -, total⟩ | ⟨rejected, -, -, -⟩)
    · rcases Nat.eq_or_lt_of_le late with rfl | later
      · obtain rfl := Option.some.inj (isLook.symm.trans isOther)
        rw [Nat.sub_self, Nat.add_zero, UInt32.toNat_inj] at total
        rw [total]
      · exact absurd (rejected first le_rfl later) open_
    · exact absurd (rejected first le_rfl (by omega)) open_
  · intro same
    obtain ⟨rfl, rfl⟩ := Prod.mk.inj same
    exact .accepted le_rfl (Nat.le_add_right _ _) .refl isLook accepted (by simp)

theorem ends_zero (isLook : (candidate first).look? = some look)
    (rejected : gallery.accepts look owner = false) :
    Ends candidate owner 0 first gallery themed after ↔
      ∃ full, gallery.collide? >>= Gallery.exhaust? = some full ∧
        ({ image := candidate first, attempts := first, unique := false },
          full.record look owner) = (themed, after) := by
  constructor
  · rintro (⟨late, few, -, isOther, accepted, -⟩ | ⟨-, isOther, collided, counted⟩)
    · obtain rfl := Nat.le_antisymm late few
      exact absurd ⟨look, isLook, rejected⟩ (not_rejects isOther accepted)
    · obtain rfl := Option.some.inj (isLook.symm.trans isOther)
      refine ⟨_, Option.bind_eq_some_iff.2 ⟨_, Gallery.collide?_eq_some.2 ⟨_, collided, rfl⟩,
        Gallery.exhaust?_eq_some.2 ⟨_, counted, rfl⟩⟩, rfl⟩
  · rintro ⟨full, isFull, ends⟩
    obtain ⟨next, isNext, isFull⟩ := Option.bind_eq_some_iff.1 isFull
    obtain ⟨collisions, collided, rfl⟩ := Gallery.collide?_eq_some.1 isNext
    obtain ⟨exhausted, counted, rfl⟩ := Gallery.exhaust?_eq_some.1 isFull
    obtain ⟨rfl, rfl⟩ := Prod.mk.inj ends
    exact .exhausted (.cons ⟨look, isLook, rejected⟩ .refl) isLook collided counted

theorem ends_succ (rejected : Rejects gallery owner (candidate first)) :
    Ends candidate owner (remaining + 1) first gallery themed after ↔
      ∃ next, gallery.collide? = some next ∧
        Ends candidate owner remaining (first + 1) next themed after := by
  have shift : first + (remaining + 1) = first + 1 + remaining := by omega
  constructor
  · intro ends
    cases ends with
    | @accepted last _ collisions late few others isLook accepted total =>
      have later : first < last := by
        refine Nat.lt_of_le_of_ne late ?_
        rintro rfl
        exact absurd rejected (not_rejects isLook accepted)
      have small := collisions.toNat_lt
      obtain ⟨one, count, isNext⟩ := gallery.exists_collide? (by rw [UInt32.size]; omega)
      exact ⟨_, isNext, .accepted later (by omega) others.tail isLook accepted (by dsimp; omega)⟩
    | @exhausted _ collisions _ others isLook total counted =>
      have small := collisions.toNat_lt
      obtain ⟨one, count, isNext⟩ := gallery.exists_collide? (by rw [UInt32.size]; omega)
      rw [shift] at others isLook ⊢
      exact ⟨_, isNext, .exhausted others.tail isLook (by dsimp; omega) counted⟩
  · rintro ⟨next, isNext, ends⟩
    obtain ⟨collisions, count, rfl⟩ := Gallery.collide?_eq_some.1 isNext
    cases ends with
    | accepted late few others isLook accepted total =>
      exact .accepted (by omega) (by omega) (.cons rejected others) isLook accepted
        (by dsimp at total; omega)
    | exhausted others isLook total counted =>
      rw [← shift] at others isLook ⊢
      exact .exhausted (.cons rejected others) isLook (by dsimp at total; omega) counted

theorem search?_of_not_rejects (notRejected : ¬ Rejects gallery owner (candidate first)) :
    search? candidate owner remaining first gallery = some (themed, after) ↔
      Ends candidate owner remaining first gallery themed after := by
  cases isLook : (candidate first).look? with
  | none =>
    rw [search?_of_look?_eq_none remaining isLook]
    exact ⟨nofun, fun ends => by simpa [isLook] using ends.isSome_look?⟩
  | some look =>
    have accepted : gallery.accepts look owner = true :=
      eq_true_of_ne_false fun rejected => notRejected ⟨look, isLook, rejected⟩
    rw [search?_of_accepts remaining isLook accepted, ends_of_accepts isLook accepted,
      Option.some.injEq]

/-- A search has a result exactly if it ends with it. -/
theorem search?_eq_some :
    search? candidate owner remaining first gallery = some (themed, after) ↔
      Ends candidate owner remaining first gallery themed after := by
  induction remaining generalizing first gallery with
  | zero =>
    by_cases rejects : Rejects gallery owner (candidate first)
    · obtain ⟨look, isLook, rejected⟩ := rejects
      rw [search?_zero isLook rejected, ends_zero isLook rejected, Option.map_eq_some_iff]
    · exact search?_of_not_rejects rejects
  | succ remaining ih =>
    by_cases rejects : Rejects gallery owner (candidate first)
    · obtain ⟨look, isLook, rejected⟩ := rejects
      rw [search?_succ remaining isLook rejected, ends_succ ⟨look, isLook, rejected⟩,
        Option.bind_eq_bind, Option.bind_eq_some_iff]
      simp only [ih]
    · exact search?_of_not_rejects rejects

/-- A search among candidates that have looks has a result exactly if there is room for the
collisions in front of the first candidate that is accepted, and for a duplicate if there is
none. -/
theorem exists_search?_iff (looks : ∀ attempt, (candidate attempt).look?.isSome = true) :
    (∃ themed after, search? candidate owner remaining first gallery = some (themed, after)) ↔
      (∀ last ≤ first + remaining + 1, first ≤ last →
        RejectsUpTo candidate owner gallery first last →
        gallery.collisions.toNat + (last - first) < UInt32.size) ∧
      (RejectsUpTo candidate owner gallery first (first + remaining + 1) →
        gallery.exhausted.toNat + 1 < UInt32.size) := by
  simp only [search?_eq_some]
  constructor
  · rintro ⟨themed, after, ends⟩
    cases ends with
    | @accepted last _ collisions late few rejected isLook accepted total =>
      have small := collisions.toNat_lt
      have earlier {other : Nat} (others : RejectsUpTo candidate owner gallery first other) :
          other ≤ last :=
        Nat.le_of_not_lt fun later => not_rejects isLook accepted (others last late later)
      refine ⟨fun other _ _ others => ?_, fun others => ?_⟩
      · have := earlier others
        rw [UInt32.size]
        omega
      · have := earlier others
        omega
    | @exhausted _ collisions exhausted rejected isLook total counted =>
      have small := collisions.toNat_lt
      have few := exhausted.toNat_lt
      rw [UInt32.size]
      exact ⟨fun other _ _ _ => by omega, fun _ => by omega⟩
  · rintro ⟨room, roomForDuplicate⟩
    by_cases all : RejectsUpTo candidate owner gallery first (first + remaining + 1)
    · obtain ⟨look, isLook, -⟩ := all (first + remaining) (by omega) (by omega)
      have total := room _ le_rfl (by omega) all
      have counted := roomForDuplicate all
      exact ⟨_, _, .exhausted all isLook
        (UInt32.toNat_ofNat_of_lt' (by rw [UInt32.size] at total ⊢; omega))
        (UInt32.toNat_ofNat_of_lt' counted)⟩
    · obtain ⟨last, few, late, rejected, isOpen⟩ := exists_first_open all
      obtain ⟨look, isLook⟩ := Option.isSome_iff_exists.1 (looks last)
      have accepted : gallery.accepts look owner = true :=
        eq_true_of_ne_false fun rejected => isOpen ⟨look, isLook, rejected⟩
      have total := room last (by omega) late rejected
      exact ⟨_, _, .accepted late (by omega) rejected isLook accepted
        (UInt32.toNat_ofNat_of_lt' total)⟩

theorem Ends.image_eq (ends : Ends candidate owner remaining first gallery themed after) :
    themed.image = candidate themed.attempts ∧ themed.attempts ≤ first + remaining := by
  cases ends with
  | accepted late few => exact ⟨rfl, few⟩
  | exhausted => exact ⟨rfl, le_rfl⟩

/-! ## Sides -/

theorem sameSides_candidate (settings : ThemeSettings) (source : Image) (hue : Float32)
    (owner : String) (attempt : Nat) :
    (Theme.candidate settings source hue owner attempt).SameSides source :=
  (Image.sameSides_vary _ _).trans (source.sameSides_recolor _ _)

/-- A themed texture has the sides of its source. -/
theorem sameSides_of_themed {settings : ThemeSettings} {source : Image} {hue : Float32}
    (made : themed? settings source hue owner gallery = some (themed, after)) :
    themed.image.SameSides source := by
  rw [(search?_eq_some.1 made).image_eq.1]
  exact sameSides_candidate settings source hue owner _

end Theme

end Blockwright
