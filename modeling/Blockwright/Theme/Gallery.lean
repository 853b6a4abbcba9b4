import Blockwright.Bytes
import Blockwright.Digest.Sha256
import Blockwright.Image.Fingerprint
import Blockwright.Image.Recolor
import Blockwright.Image.Vary

/-!
# Theming

A texture is recolored, nudged and compared with all textures before it. If it looks like one of
another owner it is made again with a stronger change of color, up to a number of retries; the
last try is accepted as a duplicate. Tries and duplicates are counted in words of 32 bits, and
nothing is themed when these are full.
-/

namespace Blockwright

/-- A counter after more has been counted, unless it does not fit a word of 32 bits. -/
def count? (counter more : UInt32) : Option UInt32 :=
  if counter.toNat + more.toNat < UInt32.size then some (counter + more) else none

theorem count?_eq_some {counter more after : UInt32} :
    count? counter more = some after ↔ after.toNat = counter.toNat + more.toNat := by
  have bound := after.toNat_lt
  rw [count?]
  split
  · next fits =>
    rw [Option.some.injEq, ← UInt32.toNat_inj, UInt32.toNat_add, Nat.mod_eq_of_lt fits, eq_comm]
  · next full => exact ⟨nofun, fun same => absurd (same ▸ bound) full⟩

/-- How textures are themed. -/
structure ThemeSettings where
  strength : Float32 := 0.55
  retryCap : UInt32 := 4
  strengthStep : Float32 := 0.12
  /-- Degrees added to the hue by each retry. -/
  hueNudge : Float32 := 11

/-- What two textures must not share. -/
structure Look where
  fingerprint : Fingerprint
  digest : String
deriving DecidableEq, Repr

/-- The look of an image, unless it has no fingerprint. -/
def Image.look? (image : Image) : Option Look := do
  let fingerprint ← Fingerprint.ofImage? image
  return { fingerprint, digest := Sha256.hex (Bytes.ofList image.bytes) }

/-- The textures of a run. The first owner of a fingerprint or digest keeps it. -/
structure Gallery where
  fingerprints : List (Fingerprint × String) := []
  digests : List (String × String) := []
  /-- Tries that looked like a texture of another owner. -/
  collisions : UInt32 := 0
  /-- Textures accepted although they look like another. -/
  exhausted : UInt32 := 0

namespace Gallery

/-- Adds an owner unless there is one. -/
def claim {κ : Type} [BEq κ] (key : κ) (owner : String) (owners : List (κ × String)) :
    List (κ × String) :=
  if (owners.lookup key).isSome then owners else (key, owner) :: owners

/-- Whether a key has no other owner. -/
def isOpen {κ : Type} [BEq κ] (key : κ) (owner : String) (owners : List (κ × String)) : Bool :=
  (owners.lookup key).all (· == owner)

/-- Whether no texture of another owner has the look. -/
def accepts (gallery : Gallery) (look : Look) (owner : String) : Bool :=
  isOpen look.fingerprint owner gallery.fingerprints && isOpen look.digest owner gallery.digests

/-- The gallery with a look claimed for an owner. -/
def record (gallery : Gallery) (look : Look) (owner : String) : Gallery :=
  { gallery with
    fingerprints := claim look.fingerprint owner gallery.fingerprints
    digests := claim look.digest owner gallery.digests }

/-- The gallery with one more collision, unless there are too many. -/
def collide? (gallery : Gallery) : Option Gallery := do
  return { gallery with collisions := ← count? gallery.collisions 1 }

/-- The gallery with one more accepted duplicate, unless there are too many. -/
def exhaust? (gallery : Gallery) : Option Gallery := do
  return { gallery with exhausted := ← count? gallery.exhausted 1 }

end Gallery

/-- A themed texture. -/
structure Themed where
  image : Image
  attempts : Nat
  /-- Whether it looks like no texture of another owner. -/
  unique : Bool

namespace Theme

/-- A number of retries as a single. -/
def single (attempt : Nat) : Float32 := (UInt32.ofNat attempt).toFloat32

/-- Key of the nudged pixels of a try. -/
def key (owner : String) (attempt : Nat) : String :=
  if attempt = 0 then owner else owner ++ "#" ++ toString attempt

/-- The image of a try. -/
def candidate (settings : ThemeSettings) (source : Image) (hue : Float32) (owner : String)
    (attempt : Nat) : Image :=
  let strength := Single.least (settings.strength + settings.strengthStep * single attempt) 1
  let hue := hue + settings.hueNudge * single attempt
  (source.recolor hue strength).vary (key owner attempt)

/-- Tries until a look is accepted or no retries remain. The search stops where a try has no look or
a counter is full. -/
def search? (candidate : Nat → Image) (owner : String) :
    (remaining attempt : Nat) → Gallery → Option (Themed × Gallery)
  | remaining, attempt, gallery => do
    let image := candidate attempt
    let look ← image.look?
    if gallery.accepts look owner then
      return ({ image, attempts := attempt, unique := true }, gallery.record look owner)
    else
      let gallery ← gallery.collide?
      match remaining with
      | 0 =>
        let gallery ← gallery.exhaust?
        return ({ image, attempts := attempt, unique := false }, gallery.record look owner)
      | remaining + 1 => search? candidate owner remaining (attempt + 1) gallery

/-- The themed texture of an owner, and the gallery with it. -/
def themed? (settings : ThemeSettings) (source : Image) (hue : Float32) (owner : String)
    (gallery : Gallery) : Option (Themed × Gallery) :=
  search? (candidate settings source hue owner) owner settings.retryCap.toNat 0 gallery

end Theme

end Blockwright
