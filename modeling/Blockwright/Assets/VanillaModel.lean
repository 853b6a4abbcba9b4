import Blockwright.Assets.Source
import Blockwright.Json.Record
import Blockwright.Text.Encoding
import Blockwright.Tree.Location

/-!
# Block states and models of the base game

What the assets of the base game say about a block: its block state names models, and a model
names its parent and the textures of its variables.
-/

namespace Blockwright

open Json (Document Fault)

namespace Json.Document

/-- A text with the faults of characters with gaps: a gap is no text for a reader that needs the
text around it, but passes where that is skipped. -/
def mend : List (Option Char) → List Char
  | [] => []
  -- Nothing but a letter can be escaped.
  | some '\\' :: next :: rest => '\\' :: next.getD '\x00' :: mend rest
  | some c :: rest => c :: mend rest
  -- The second of two surrogates is unpaired, whatever stands in front of them.
  | none :: rest => "\\udc00\\udc00".toList ++ mend rest

/-- The text in a byte string, with the faults of what is not UTF-8. -/
def sourceOf (bytes : ByteArray) : String :=
  match String.fromUTF8? bytes with
  | some source => source
  | none => String.ofList (mend (Text.characters (Bytes.list bytes)))

/-- What a reader makes of a byte string. Texts in it need not be UTF-8 where they are skipped.
Faults are not told apart. -/
def readBytes {α : Type} (read : Document → Except Fault α) (bytes : ByteArray) : Option α :=
  (readWhole read (sourceOf bytes)).toOption

end Json.Document

/-- The models that a block state names. -/
structure VanillaState where
  /-- Models of variants, by the properties that select them. -/
  variants : List (String × List String) := []
  parts : List (List String) := []

namespace VanillaState

/-- Reads a choice of a model. -/
def readChoice : Document → Except Fault String :=
  Document.readRecord .buffered ["model"] ["model"] (fun _ value _ => value.readText) ""

/-- Reads one choice or a list of them, which may nest as deep as there is room. -/
def readChoices (room : Nat) (value : Document) : Except Fault (List String) := do
  let _ ← value.toJson room
  match readChoice value with
  | .ok model => return [model]
  | .error _ => Document.readList readChoice value

/-- Reads variants; the last of several with the same properties counts. -/
def readVariants (done : List (String × List String)) :
    List (Option String × Document) → Except Fault (List (String × List String))
  | [] => .ok done
  | (none, _) :: _ => .error .form
  | (some properties, value) :: rest => do
    let models ← readChoices (Document.depthLimit - 2) value
    readVariants ((properties, models) :: done.filter (fun other => other.1 != properties)) rest

/-- Reads the variants of a block state. -/
def readVariantMap : Document → Except Fault (List (String × List String))
  | .object members fault => do
    let variants ← readVariants [] members
    Document.finished fault
    return variants
  | other => .error other.mismatch

def readPart : Document → Except Fault (List String) :=
  let read (_ : String) (value : Document) (_ : List String) :=
    readChoices (Document.depthLimit - 3) value
  Document.readRecord .streamed ["apply"] ["apply"] read []

def readField (name : String) (value : Document) (state : VanillaState) :
    Except Fault VanillaState := do
  match name with
  | "variants" =>
    return { state with variants := (← Document.readOptional readVariantMap value).getD [] }
  | "multipart" =>
    let read := Document.readList readPart
    return { state with parts := (← Document.readOptional read value).getD [] }
  | _ => return state

/-- Reads a block state. -/
def read : Document → Except Fault VanillaState :=
  Document.readRecord .streamed ["variants", "multipart"] [] readField {}

/-- The models that a block state names, ascending and with their namespaces. -/
def models (state : VanillaState) : List String :=
  Text.ascending ((state.variants.flatMap Prod.snd ++ state.parts.flatten).map Location.canonical)

end VanillaState

/-- A model. -/
structure VanillaModel where
  /-- Model that it takes from what it does not define. -/
  parent : Option String := none
  /-- Values of its texture variables; of several for one variable the first counts. -/
  textures : List (String × String) := []

namespace VanillaModel

/-- Reads texture variables, latest first. -/
def readVariables (done : List (String × String)) :
    List (Option String × Document) → Except Fault (List (String × String))
  | [] => .ok done
  | (none, _) :: _ => .error .form
  | (some key, value) :: rest => do
    let value ← value.readText
    readVariables ((key, value) :: done) rest

/-- Reads the texture variables of a model. -/
def readTextures : Document → Except Fault (List (String × String))
  | .object members fault => do
    let textures ← readVariables [] members
    Document.finished fault
    return textures
  | other => .error other.mismatch

def readField (name : String) (value : Document) (model : VanillaModel) :
    Except Fault VanillaModel := do
  match name with
  | "parent" => return { model with parent := ← Document.readOptional Document.readText value }
  | "textures" => return { model with textures := ← readTextures value }
  | _ => return model

/-- Reads a model. -/
def read : Document → Except Fault VanillaModel :=
  Document.readRecord .streamed ["parent", "textures"] [] readField {}

end VanillaModel

namespace AssetSource

/-- What a reader makes of the file at a path; nothing if the file is missing, cannot be read or
is malformed. -/
def load? {α : Type} (source : AssetSource) (read : Document → Except Fault α) (path : String) :
    Option α :=
  match source.read path with
  | .ok (some bytes) => Document.readBytes read bytes
  | _ => none

/-- The block state of a block. -/
def state? (source : AssetSource) (block : String) : Option VanillaState :=
  source.load? VanillaState.read (Location.blockStateFile block)

/-- The model at a location. -/
def model? (source : AssetSource) (location : String) : Option VanillaModel :=
  source.load? VanillaModel.read (Location.modelFile location)

end AssetSource

end Blockwright
