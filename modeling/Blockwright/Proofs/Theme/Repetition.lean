import Blockwright.Proofs.Theme.History

/-!
# Repeated theming

A gallery never takes a key from its owner. A try that was rejected stays rejected, because the
owner that stood in its way is still there, and the try that was accepted stays accepted, because
its keys belong to its owner from then on.
-/

namespace Blockwright

namespace Gallery

/-! ## Owners that stay -/

section Owners

variable {κ : Type} [BEq κ] {owners later last : List (κ × String)} {key : κ} {owner : String}

/-- Whether every key that has an owner keeps it. -/
def Keeps (owners later : List (κ × String)) : Prop :=
  ∀ key owner, owners.lookup key = some owner → later.lookup key = some owner

theorem Keeps.refl (owners : List (κ × String)) : Keeps owners owners := fun _ _ => id

theorem Keeps.trans (first : Keeps owners later) (second : Keeps later last) :
    Keeps owners last :=
  fun key owner isOwner => second key owner (first key owner isOwner)

theorem Keeps.isOpen_eq_false (keeps : Keeps owners later)
    (closed : isOpen key owner owners = false) : isOpen key owner later = false := by
  rw [isOpen] at closed ⊢
  cases found : owners.lookup key with
  | none => simp [found] at closed
  | some first =>
    rw [keeps key first found]
    rwa [found] at closed

/-- A key that was open to its owner stays open to it. -/
theorem Keeps.isOpen [LawfulBEq κ] (keeps : Keeps (claim key owner owners) later)
    (wasOpen : isOpen key owner owners = true) : Gallery.isOpen key owner later = true := by
  have claimed : (claim key owner owners).lookup key = some owner := by
    rw [Gallery.isOpen] at wasOpen
    rw [lookup_claim]
    cases found : owners.lookup key with
    | none => simp
    | some first =>
      obtain rfl : first = owner := by simpa [found] using wasOpen
      rfl
  rw [Gallery.isOpen, keeps key owner claimed]
  simp

end Owners

/-- Whether a gallery still has all owners of another. -/
structure Extends (later earlier : Gallery) : Prop where
  fingerprints : Keeps earlier.fingerprints later.fingerprints
  digests : Keeps earlier.digests later.digests

variable {gallery later last : Gallery} {look : Look} {owner : String}

theorem Extends.refl (gallery : Gallery) : gallery.Extends gallery := ⟨.refl _, .refl _⟩

theorem Extends.trans (second : last.Extends later) (first : later.Extends gallery) :
    last.Extends gallery :=
  ⟨first.fingerprints.trans second.fingerprints, first.digests.trans second.digests⟩

theorem Extends.rejects (grown : later.Extends gallery)
    (rejected : gallery.accepts look owner = false) : later.accepts look owner = false := by
  rw [accepts, Bool.and_eq_false_iff] at rejected ⊢
  exact rejected.imp grown.fingerprints.isOpen_eq_false grown.digests.isOpen_eq_false

theorem Extends.accepts (grown : later.Extends (gallery.record look owner))
    (accepted : gallery.accepts look owner = true) : later.accepts look owner = true := by
  rw [Gallery.accepts, Bool.and_eq_true] at accepted ⊢
  exact ⟨grown.fingerprints.isOpen accepted.1, grown.digests.isOpen accepted.2⟩

/-- Whether the counts of a gallery have room for a texture. -/
def HasRoom (gallery : Gallery) (themed : Themed) : Prop :=
  gallery.collisions.toNat + themed.collisions < UInt32.size ∧
    gallery.exhausted.toNat + themed.duplicates < UInt32.size

instance (gallery : Gallery) (themed : Themed) : Decidable (gallery.HasRoom themed) :=
  inferInstanceAs (Decidable (_ ∧ _))

end Gallery

namespace Theme

variable {candidate : Nat → Image} {remaining first last : Nat} {gallery after later : Gallery}
  {owner : String} {themed : Themed}

theorem Rejects.again (grown : later.Extends gallery) {image : Image}
    (rejects : Rejects gallery owner image) : Rejects later owner image := by
  obtain ⟨look, isLook, rejected⟩ := rejects
  exact ⟨look, isLook, grown.rejects rejected⟩

theorem RejectsUpTo.again (grown : later.Extends gallery)
    (rejected : RejectsUpTo candidate owner gallery first last) :
    RejectsUpTo candidate owner later first last :=
  fun attempt late early => (rejected attempt late early).again grown

end Theme

end Blockwright
