import Blockwright.Assets.Dependencies
import Blockwright.Png.Basic
import Blockwright.Theme.Gallery

/-!
# Runs

What is kept from texture to texture while a mod is rendered: the textures so far, a memory for
blocks of the base game, and a tally. It also outlives a failure.
-/

namespace Blockwright

/-- Why a texture cannot be rendered. -/
inductive RenderError where
  | source (error : SourceError)
  | decode (path asset : String) (error : Png.Error)
  /-- The texture cannot be written as an image. -/
  | encode (path : String) (error : Png.Error)
  | invalid (path reason : String)
  /-- Nobody says how to make the texture. -/
  | noTask (path : String)
  /-- A number does not fit its word, or a buffer cannot be held. This is nothing that can be
  answered: it stops the program. -/
  | halted
deriving DecidableEq, Repr

def RenderError.message : RenderError → String
  | .source error => error.message
  | .decode path asset error =>
    "Texture " ++ path ++ ": source " ++ asset ++ " failed to decode: " ++ error.message
  | .encode path error => "Texture " ++ path ++ ": encoding failed: " ++ error.message
  | .invalid path reason => "Texture " ++ path ++ " failed validation: " ++ reason
  | .noTask path => "Texture " ++ path ++ " has no generation metadata"
  | .halted => "arithmetic overflow"

/-- Why a texture cannot be rendered from an asset that cannot be read as an image. -/
def RenderError.ofDecoding (path asset : String) : Png.Error → RenderError
  | .overflow => .halted
  | error => .decode path asset error

/-- Why a texture cannot be rendered that cannot be written as an image. -/
def RenderError.ofEncoding (path : String) : Png.Error → RenderError
  | .overflow => .halted
  | error => .encode path error

/-- Where the pixels of a texture come from. -/
inductive Origin where
  | copied
  | templated
  | synthesized
deriving DecidableEq, Repr

/-- Counts of a run. -/
structure Tally where
  textures : UInt32 := 0
  copied : UInt32 := 0
  templated : UInt32 := 0
  synthesized : UInt32 := 0
  /-- Textures that took at least one retry. -/
  retried : UInt32 := 0
  /-- Tries that looked like a texture of another owner, as of the last batch that succeeded. -/
  collisions : UInt32 := 0
  /-- Textures accepted although they look like another, as of the last batch that succeeded. -/
  exhausted : UInt32 := 0
  warnings : UInt32 := 0
deriving DecidableEq, Repr

namespace Tally

/-- The tally with one more texture of an origin, unless there are too many. -/
def addOrigin? (tally : Tally) : Origin → Option Tally
  | .copied => do return { tally with copied := ← count? tally.copied 1 }
  | .templated => do return { tally with templated := ← count? tally.templated 1 }
  | .synthesized => do return { tally with synthesized := ← count? tally.synthesized 1 }

/-- The tally with one more texture, unless a counter is full. -/
def add? (tally : Tally) (origin : Origin) (attempts warnings : Nat) : Option Tally := do
  let textures ← count? tally.textures 1
  let warnings ← count? tally.warnings (UInt32.ofNat warnings)
  let retried ← count? tally.retried (if 0 < attempts then 1 else 0)
  { tally with textures, warnings, retried }.addOrigin? origin

/-- The tally with the counts of a gallery. -/
def settle (tally : Tally) (gallery : Gallery) : Tally :=
  { tally with collisions := gallery.collisions, exhausted := gallery.exhausted }

/-- The counts by name. -/
def toJson (tally : Tally) : Json :=
  let count (counter : UInt32) : Json := .nat counter.toNat
  Json.ofMembers [
    ("textures", count tally.textures),
    ("copied", count tally.copied),
    ("templated", count tally.templated),
    ("synthesized", count tally.synthesized),
    ("retried", count tally.retried),
    ("collisions", count tally.collisions),
    ("exhausted", count tally.exhausted),
    ("validationWarnings", count tally.warnings)]

end Tally

/-! ## Memories for blocks -/

/-- A memory that is asked about blocks of the base game. -/
class BlockMemory (μ : Type) where
  /-- The memory before the first question. -/
  start : μ
  /-- What a source says about a block, and the memory afterwards. -/
  consult : AssetSource → String → μ → Dependencies × μ

/-- What is known about blocks, latest first. -/
structure Memo where
  known : List (String × Dependencies) := []

/-- What is known about a block, looked up in the source the first time. -/
def Memo.consult (source : AssetSource) (block : String) (memo : Memo) : Dependencies × Memo :=
  match memo.known.lookup block with
  | some found => (found, memo)
  | none =>
    let found := Dependencies.ofBlock source block
    (found, { known := (block, found) :: memo.known })

instance : BlockMemory Memo where
  start := {}
  consult := Memo.consult

/-- The blocks that were looked up, as often as they were, latest first. -/
structure Lookups where
  blocks : List String := []

/-- Every block is looked up in the source, however often that is done. -/
instance : BlockMemory Lookups where
  start := {}
  consult source block lookups :=
    (Dependencies.ofBlock source block, { blocks := block :: lookups.blocks })

/-- What is kept from texture to texture. -/
structure Run (μ : Type) where
  gallery : Gallery := {}
  memory : μ
  tally : Tally := {}

namespace Run

variable {μ : Type} [BlockMemory μ]

/-- The run before the first texture. -/
def start : Run μ := { memory := BlockMemory.start }

/-- What must be known for a texture source. -/
def consult (run : Run μ) (source : AssetSource) : TextureSource → Dependencies × Run μ
  | .template block =>
    let (found, memory) := BlockMemory.consult source block run.memory
    (found, { run with memory })
  | _ => ({}, run)

end Run

end Blockwright
