import Blockwright.Proofs.Theme.History

/-!
# The texture that is accepted

A themed texture is the first candidate whose look has no other owner, or the last candidate if
there is none. The gallery counts what was rejected on the way, and otherwise takes in nothing but
the look of the texture.
-/

namespace Blockwright

namespace Gallery

/-- Whether neither the fingerprint nor the digest of a look has another owner. -/
def IsFree (gallery : Gallery) (look : Look) (owner : String) : Prop :=
  (∀ other, gallery.fingerprints.lookup look.fingerprint = some other → other = owner) ∧
    ∀ other, gallery.digests.lookup look.digest = some other → other = owner

theorem lookup_claim_eq {κ : Type} [DecidableEq κ] {owners : List (κ × String)} {key found : κ}
    {owner : String} :
    (claim key owner owners).lookup found =
      (owners.lookup found).or (if found = key then some owner else none) := by
  simp only [lookup_claim, beq_iff_eq]

theorem isOpen_iff {κ : Type} [BEq κ] {key : κ} {owner : String} {owners : List (κ × String)} :
    isOpen key owner owners = true ↔ ∀ other, owners.lookup key = some other → other = owner := by
  rw [isOpen]
  cases owners.lookup key <;> simp

theorem accepts_iff {gallery : Gallery} {look : Look} {owner : String} :
    gallery.accepts look owner = true ↔ gallery.IsFree look owner := by
  rw [accepts, Bool.and_eq_true, isOpen_iff, isOpen_iff, IsFree]

theorem accepts_eq_false_iff {gallery : Gallery} {look : Look} {owner : String} :
    gallery.accepts look owner = false ↔ ¬ gallery.IsFree look owner := by
  rw [← accepts_iff, Bool.not_eq_true]

end Gallery

namespace Theme

variable {gallery : Gallery} {owner : String} {tried : Nat → Image}

theorem rejects_iff {image : Image} :
    Rejects gallery owner image ↔
      ∃ look, image.look? = some look ∧ ¬ gallery.IsFree look owner := by
  simp only [Rejects, Gallery.accepts_eq_false_iff]

theorem rejectsUpTo_zero_iff {last : Nat} :
    RejectsUpTo tried owner gallery 0 last ↔
      ∀ k < last, ∃ look, (tried k).look? = some look ∧ ¬ gallery.IsFree look owner := by
  simp only [RejectsUpTo, Nat.zero_le, true_imp_iff, rejects_iff]

/-- Try `k` turns the source to the hue plus `k` nudges, with the strength plus `k` steps but at
most one, and varies it under the owner, with `#k` behind it from the first retry on. A texture is
themed exactly if the sides of the source are shorter than `2 ^ 30` and the counts have room. It is
then the try that as many tries stand in front of as were made in vain. It is unique if neither its
fingerprint nor its digest has another owner, and then all those in front of it had one; otherwise
it is the last try, and all tries had one. The gallery counts every try that had one, and the
texture if it had; its keys get the owner unless they have one, and no other key gets or loses an
owner. -/
theorem themed_first (settings : ThemeSettings) (source : Image) (hue : Float32) (owner : String)
    (gallery : Gallery) :
    let retries := settings.retryCap.toNat
    let tried (k : Nat) : Image :=
      (source.recolor (hue + settings.hueNudge * (UInt32.ofNat k).toFloat32)
        (Single.least (settings.strength + settings.strengthStep * (UInt32.ofNat k).toFloat32)
          1)).vary (if k = 0 then owner else owner ++ "#" ++ toString k)
    let isTaken (k : Nat) : Prop :=
      ∃ look, (tried k).look? = some look ∧ ¬ gallery.IsFree look owner
    ((∃ themed after, themed? settings source hue owner gallery = some (themed, after)) ↔
      (source.width.toNat < 2 ^ 30 ∧ source.height.toNat < 2 ^ 30) ∧
      (∀ count ≤ retries + 1, (∀ k < count, isTaken k) →
        gallery.collisions.toNat + count < UInt32.size) ∧
      ((∀ k < retries + 1, isTaken k) → gallery.exhausted.toNat + 1 < UInt32.size)) ∧
    ∀ themed after, themed? settings source hue owner gallery = some (themed, after) →
      themed.image = tried themed.attempts ∧ (∀ earlier < themed.attempts, isTaken earlier) ∧
      ∃ look, themed.image.look? = some look ∧
        (themed.unique = true ∧ themed.attempts ≤ retries ∧ gallery.IsFree look owner ∧
            after.collisions.toNat = gallery.collisions.toNat + themed.attempts ∧
            after.exhausted = gallery.exhausted ∨
          themed.unique = false ∧ themed.attempts = retries ∧ ¬ gallery.IsFree look owner ∧
            after.collisions.toNat = gallery.collisions.toNat + (retries + 1) ∧
            after.exhausted.toNat = gallery.exhausted.toNat + 1) ∧
        (∀ fingerprint, after.fingerprints.lookup fingerprint =
          (gallery.fingerprints.lookup fingerprint).or
            (if fingerprint = look.fingerprint then some owner else none)) ∧
        ∀ digest, after.digests.lookup digest =
          (gallery.digests.lookup digest).or
            (if digest = look.digest then some owner else none) := by
  intro retries tried isTaken
  have isSearch : themed? settings source hue owner gallery =
      search? tried owner retries 0 gallery := rfl
  have sides (k : Nat) : (tried k).look?.isSome = true ↔
      source.width.toNat < 2 ^ 30 ∧ source.height.toNat < 2 ^ 30 := by
    have same : (tried k).SameSides source := sameSides_candidate settings source hue owner k
    rw [same.isSome_look?_eq, Image.isSome_look?_iff]
  have returns (short : source.width.toNat < 2 ^ 30 ∧ source.height.toNat < 2 ^ 30) :=
    @exists_search?_iff tried owner gallery retries 0 fun k => (sides k).2 short
  simp only [Nat.zero_add, Nat.sub_zero, Nat.zero_le, true_imp_iff, rejectsUpTo_zero_iff] at returns
  rw [isSearch]
  refine ⟨⟨fun found => ?_, fun ⟨short, room⟩ => (returns short).2 room⟩,
    fun themed after found => ?_⟩
  · obtain ⟨themed, after, made⟩ := found
    have short := (sides 0).1 (search?_eq_some.1 made).isSome_look?
    exact ⟨short, (returns short).1 ⟨themed, after, made⟩⟩
  · cases search?_eq_some.1 found with
    | @accepted last look _ late few rejected isLook accepted collided =>
      rw [Nat.zero_add] at few
      exact ⟨rfl, rejectsUpTo_zero_iff.1 rejected, look, isLook,
        .inl ⟨rfl, few, Gallery.accepts_iff.1 accepted, collided, rfl⟩,
        fun _ => Gallery.lookup_claim_eq, fun _ => Gallery.lookup_claim_eq⟩
    | @exhausted look _ _ rejected isLook collided counted =>
      rw [Nat.zero_add] at rejected isLook
      have taken := rejectsUpTo_zero_iff.1 rejected
      obtain ⟨other, isOther, notFree⟩ := taken retries (Nat.lt_succ_self _)
      obtain rfl := Option.some.inj (isOther.symm.trans isLook)
      exact ⟨by rw [Nat.zero_add], fun k early => taken k (by dsimp only at early; omega), other,
        by rwa [Nat.zero_add], .inr ⟨rfl, Nat.zero_add _, notFree, collided, counted⟩,
        fun _ => Gallery.lookup_claim_eq, fun _ => Gallery.lookup_claim_eq⟩

/-- No word counts the bounds of `2 ^ 30` columns. -/
theorem themed_first_wide :
    themed? {} { width := 0x40000000, height := 0, pixels := #[] } 0 "a" {} = none := by
  refine Option.eq_none_iff_forall_ne_some.2 fun ⟨themed, after⟩ made => ?_
  have returns := (themed_first {} { width := 0x40000000, height := 0, pixels := #[] } 0 "a" {}).1
  exact absurd (returns.1 ⟨themed, after, made⟩).1.1 (by decide)

end Theme

end Blockwright
