import Blockwright.Proofs.Theme.Search

/-!
# Histories of theming

A gallery remembers the looks of all textures so far, also of accepted duplicates, each under its
first owner. A texture of a new owner that is accepted is therefore unlike all of them.
-/

namespace Blockwright

/-- Whether two looks share neither fingerprint nor digest. -/
def Look.Apart (first second : Look) : Prop :=
  first.fingerprint ≠ second.fingerprint ∧ first.digest ≠ second.digest

namespace Themed

/-- Number of textures accepted although they look like another. -/
def duplicates (themed : Themed) : Nat := if themed.unique then 0 else 1

/-- Number of tries that looked like a texture of another owner. -/
def collisions (themed : Themed) : Nat := themed.attempts + themed.duplicates

end Themed

namespace Gallery

/-! ## Owners of keys -/

section Owners

variable {κ : Type} [BEq κ] {owners : List (κ × String)} {keys : List κ}
  {names : List String}

/-- Whether keys have owners, and all owners are among the given names. -/
structure Knows (owners : List (κ × String)) (keys : List κ) (names : List String) : Prop where
  owned : ∀ key ∈ keys, (owners.lookup key).isSome = true
  named : ∀ key owner, owners.lookup key = some owner → owner ∈ names

theorem knows_nil : Knows ([] : List (κ × String)) [] [] :=
  ⟨by simp, by simp⟩

/-- A claim keeps the owners that there are. -/
theorem lookup_claim [LawfulBEq κ] (key found : κ) (owner : String) :
    (claim key owner owners).lookup found =
      (owners.lookup found).or (if found == key then some owner else none) := by
  rw [claim]
  split
  · next owned =>
    split
    · next same =>
      rw [beq_iff_eq.1 same]
      obtain ⟨first, isFirst⟩ := Option.isSome_iff_exists.1 owned
      simp [isFirst]
    · simp
  · next unowned =>
    rw [List.lookup_cons]
    cases same : found == key with
    | true =>
      rw [Bool.not_eq_true, Option.isSome_eq_false_iff, Option.isNone_iff_eq_none] at unowned
      simp [beq_iff_eq.1 same, unowned]
    | false => simp

theorem Knows.claim [LawfulBEq κ] (knows : Knows owners keys names) (key : κ)
    (owner : String) :
    Knows (claim key owner owners) (key :: keys) (owner :: names) where
  owned found isKey := by
    rw [lookup_claim, Option.isSome_or]
    rcases List.mem_cons.1 isKey with rfl | isKey
    · simp
    · simp [knows.owned found isKey]
  named found first isOwner := by
    rw [lookup_claim, Option.or_eq_some_iff] at isOwner
    rcases isOwner with isOwner | ⟨-, isNew⟩
    · exact List.mem_cons_of_mem _ (knows.named found first isOwner)
    · split at isNew
      · cases isNew
        exact List.mem_cons_self
      · cases isNew

/-- A key that is open to a new owner is a new key. -/
theorem Knows.not_mem (knows : Knows owners keys names) {owner : String} (isNew : owner ∉ names)
    {key : κ} (isOpen : isOpen key owner owners = true) : key ∉ keys := by
  intro isKey
  obtain ⟨first, isFirst⟩ := Option.isSome_iff_exists.1 (knows.owned key isKey)
  rw [Gallery.isOpen, isFirst] at isOpen
  obtain rfl : first = owner := by simpa using isOpen
  exact isNew (knows.named key first isFirst)

end Owners

/-! ## Looks -/

/-- Whether a gallery knows looks and no owners but the given ones. -/
structure Remembers (gallery : Gallery) (looks : List Look) (names : List String) : Prop where
  fingerprints : Knows gallery.fingerprints (looks.map Look.fingerprint) names
  digests : Knows gallery.digests (looks.map Look.digest) names

theorem remembers_nil : Remembers {} [] [] := ⟨knows_nil, knows_nil⟩

theorem Remembers.apart {gallery : Gallery} {looks : List Look} {names : List String}
    (remembers : gallery.Remembers looks names) {owner : String} (isNew : owner ∉ names)
    {look : Look} (accepted : gallery.accepts look owner = true) :
    ∀ earlier ∈ looks, earlier.Apart look := by
  obtain ⟨fingerprintOpen, digestOpen⟩ := Bool.and_eq_true_iff.1 accepted
  intro earlier isEarlier
  refine ⟨fun same => ?_, fun same => ?_⟩
  · exact remembers.fingerprints.not_mem isNew fingerprintOpen
      (same ▸ List.mem_map_of_mem isEarlier)
  · exact remembers.digests.not_mem isNew digestOpen (same ▸ List.mem_map_of_mem isEarlier)

/-- What a themed texture of an owner does to a gallery. -/
structure Adds (owner : String) (before : Gallery) (themed : Themed) (look : Look)
    (after : Gallery) : Prop where
  isLook : themed.image.look? = some look
  fingerprints : after.fingerprints = claim look.fingerprint owner before.fingerprints
  digests : after.digests = claim look.digest owner before.digests
  accepted : themed.unique = true → before.accepts look owner = true
  counted : after.exhausted.toNat = before.exhausted.toNat + themed.duplicates

theorem Remembers.adds {before after : Gallery} {looks : List Look} {names : List String}
    (remembers : before.Remembers looks names) {owner : String} {themed : Themed} {look : Look}
    (adds : Adds owner before themed look after) :
    after.Remembers (look :: looks) (owner :: names) where
  fingerprints := adds.fingerprints ▸ remembers.fingerprints.claim _ _
  digests := adds.digests ▸ remembers.digests.claim _ _

end Gallery

/-- Whether two images have looks that share neither fingerprint nor digest. -/
def Image.Apart (first second : Image) : Prop :=
  ∃ look other, first.look? = some look ∧ second.look? = some other ∧ look.Apart other

namespace Theme

/-- However many tries it takes, the last one is added. -/
theorem Ends.exists_adds {candidate : Nat → Image} {owner : String} {remaining first : Nat}
    {gallery after : Gallery} {themed : Themed}
    (ends : Ends candidate owner remaining first gallery themed after) :
    ∃ look, Gallery.Adds owner gallery themed look after := by
  cases ends with
  | accepted _ _ _ isLook accepted => exact ⟨_, isLook, rfl, rfl, fun _ => accepted, rfl⟩
  | exhausted _ isLook _ counted => exact ⟨_, isLook, rfl, rfl, nofun, counted⟩

/-- A texture that is retried is in a collision, and so is a duplicate. -/
theorem counted_themed {settings : ThemeSettings} {source : Image} {hue : Float32}
    {owner : String} {gallery after : Gallery} {themed : Themed}
    (made : themed? settings source hue owner gallery = some (themed, after)) :
    after.collisions.toNat = gallery.collisions.toNat + themed.collisions ∧
      after.exhausted.toNat = gallery.exhausted.toNat + themed.duplicates := by
  cases search?_eq_some.1 made with
  | accepted _ _ _ _ _ collided => exact ⟨collided, rfl⟩
  | exhausted _ _ collided counted =>
    exact ⟨by rw [Themed.collisions, Nat.zero_add]; exact collided, counted⟩

/-! ## Runs of calls -/

/-- A texture to be themed. -/
structure Call where
  settings : ThemeSettings
  source : Image
  hue : Float32
  owner : String

/-- The themed textures of calls one after the other, and the gallery with them, unless one of the
calls has none. -/
def themedAll? : List Call → Gallery → Option (List Themed × Gallery)
  | [], gallery => some ([], gallery)
  | call :: rest, gallery => do
    let (themed, gallery) ← themed? call.settings call.source call.hue call.owner gallery
    let (others, gallery) ← themedAll? rest gallery
    return (themed :: others, gallery)

variable {call : Call} {calls : List Call} {gallery after : Gallery} {results : List Themed}

theorem themedAll?_cons :
    themedAll? (call :: calls) gallery = some (results, after) ↔
      ∃ themed next others,
        themed? call.settings call.source call.hue call.owner gallery = some (themed, next) ∧
        themedAll? calls next = some (others, after) ∧ results = themed :: others := by
  simp only [themedAll?, Option.bind_eq_bind, Option.bind_eq_some_iff, Prod.exists,
    Option.pure_def, Option.some.injEq, Prod.mk.injEq]
  constructor
  · rintro ⟨result, next, made, others, last, all, rfl, rfl⟩
    exact ⟨result, next, others, made, all, rfl⟩
  · rintro ⟨result, next, others, made, all, rfl⟩
    exact ⟨result, next, made, others, after, all, rfl, rfl⟩

/-- Every texture that is not unique is counted. -/
theorem exhausted_themedAll? (themed : themedAll? calls gallery = some (results, after)) :
    after.exhausted.toNat =
      gallery.exhausted.toNat + results.countP fun themed => !themed.unique := by
  induction calls generalizing gallery results with
  | nil =>
    obtain ⟨rfl, rfl⟩ := Prod.mk.inj (Option.some.inj themed)
    rfl
  | cons call rest ih =>
    obtain ⟨result, next, others, made, all, rfl⟩ := themedAll?_cons.1 themed
    obtain ⟨look, adds⟩ := (search?_eq_some.1 made).exists_adds
    rw [ih all, adds.counted, List.countP_cons]
    rw [Themed.duplicates]
    cases result.unique <;> simp; omega

/-- A unique texture is unlike all textures before it, if owners are different. -/
theorem apart_themedAll? {looks : List Look} {names : List String}
    (remembers : gallery.Remembers looks names)
    (different : (calls.map Call.owner ++ names).Nodup)
    (themed : themedAll? calls gallery = some (results, after)) :
    results.Pairwise (fun earlier later =>
        later.unique = true → earlier.image.Apart later.image) ∧
      ∀ themed ∈ results, themed.unique = true →
        ∀ look ∈ looks, ∃ other, themed.image.look? = some other ∧ look.Apart other := by
  induction calls generalizing gallery looks names results with
  | nil =>
    obtain ⟨rfl, rfl⟩ := Prod.mk.inj (Option.some.inj themed)
    exact ⟨.nil, by simp⟩
  | cons call rest ih =>
    obtain ⟨result, next, others, made, all, rfl⟩ := themedAll?_cons.1 themed
    obtain ⟨look, adds⟩ := (search?_eq_some.1 made).exists_adds
    rw [List.map_cons, List.cons_append, List.nodup_cons] at different
    have isNew : call.owner ∉ names := fun isName =>
      different.1 (List.mem_append_right _ isName)
    have rotated : (rest.map Call.owner ++ call.owner :: names).Nodup :=
      List.nodup_middle.2 (List.nodup_cons.2 different)
    obtain ⟨inOrder, apart⟩ := ih (remembers.adds adds) rotated all
    refine ⟨List.pairwise_cons.2 ⟨fun later isLater unique => ?_, inOrder⟩,
      List.forall_mem_cons.2 ⟨fun unique => ?_, fun later isLater unique look isLook => ?_⟩⟩
    · obtain ⟨other, isOther, isApart⟩ := apart later isLater unique _ List.mem_cons_self
      exact ⟨look, other, adds.isLook, isOther, isApart⟩
    · exact fun earlier isEarlier =>
        ⟨look, adds.isLook, remembers.apart isNew (adds.accepted unique) earlier isEarlier⟩
    · exact apart later isLater unique look (List.mem_cons_of_mem _ isLook)

end Theme

end Blockwright
