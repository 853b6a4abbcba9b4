import Blockwright.Json.Document

/-!
# Typed reading of JSON documents

Readers of texts, numbers, lists, variants and records. A record is an object whose unknown
members are skipped, or an array of its fields in declaration order. Every reader reports the
first fault in text order.
-/

namespace Blockwright

namespace Json

/-- How a document came to be read. -/
inductive Mode where
  | streamed
  /-- After the whole value had been read without fault. -/
  | buffered
deriving DecidableEq, Repr

namespace Document

/-- The fault of a value that is not of the expected kind. -/
def mismatch : Document → Fault
  | .number none => .form
  | .text none => .form
  | .broken fault => fault.needed
  | _ => .kind

def readText : Document → Except Fault String
  | .text (some value) => .ok value
  | other => .error other.mismatch

/-- Reads a truth value. -/
def readBool : Document → Except Fault Bool
  | .bool value => .ok value
  | other => .error other.mismatch

/-- Reads a non-negative integer of 32 bits. -/
def readWord : Document → Except Fault UInt32
  | .number (some (.integer value)) =>
    if 0 ≤ value && value < UInt32.size then .ok (UInt32.ofNat value.toNat) else .error .kind
  | other => .error other.mismatch

/-- The double nearest to an integer of at most 64 bits. -/
def doubleOfInteger (value : Int) : Float :=
  let size := (UInt64.ofNat value.natAbs).toFloat
  if value < 0 then -size else size

/-- The single nearest to an integer of at most 64 bits. -/
def singleOfInteger (value : Int) : Float32 :=
  let size := (UInt64.ofNat value.natAbs).toFloat32
  if value < 0 then -size else size

def readDouble : Document → Except Fault Float
  | .number (some (.integer value)) => .ok (doubleOfInteger value)
  | .number (some (.real value)) => .ok value
  | other => .error other.mismatch

def readSingle : Document → Except Fault Float32
  | .number (some (.integer value)) => .ok (singleOfInteger value)
  | .number (some (.real value)) => .ok value.toFloat32
  | other => .error other.mismatch

/-- Reads the empty value as none, anything else by the given reader. -/
def readOptional {α : Type} (read : Document → Except Fault α) :
    Document → Except Fault (Option α)
  | .null => .ok none
  | .broken fault =>
    if fault.empty then .error fault.needed else (read (.broken fault)).map some
  | other => (read other).map some

def readList {α : Type} (read : Document → Except Fault α) : Document → Except Fault (List α)
  | .array elements fault => do
    let values ← elements.mapM read
    finished fault
    return values
  | other => .error other.mismatch

/-- The variant with the given name. -/
def variantNamed {α : Type} (ofName? : String → Option α) (name : String) : Except Fault α :=
  match ofName? name with
  | some value => .ok value
  | none => .error .kind

/-- Reads the empty value that may stand behind the name of a variant. -/
def readNothing (mode : Mode) : Document → Except Fault Unit
  | .null => .ok ()
  | .object [] none => if mode = .buffered then .ok () else .error .kind
  | other => .error other.mismatch

/-- Reads a variant: its name, or an object with its name as the only key. -/
def readVariant {α : Type} (mode : Mode) (ofName? : String → Option α) :
    Document → Except Fault α
  | .text (some name) => variantNamed ofName? name
  | .object ((some name, value) :: rest) fault => do
    if mode = .buffered && !rest.isEmpty then throw .kind
    let variant ← variantNamed ofName? name
    readNothing mode value
    if !rest.isEmpty then throw .form
    match fault with
    | some fault => throw fault.variant
    | none => return variant
  | .object [] (some fault) => .error fault.variant
  | .broken fault => .error fault.variant
  | _ => .error (if mode = .buffered then .kind else .form)

/-- Reads members in order: known ones once each by the given reader, unknown ones are skipped. -/
def readMembers {σ : Type} (known : List String) (read : String → Document → σ → Except Fault σ) :
    (seen : List String) → σ → List (Option String × Document) →
    Except Fault (List String × σ)
  | seen, state, [] => .ok (seen, state)
  | _, _, (none, _) :: _ => .error .form
  | seen, state, (some key, value) :: rest => do
    if known.contains key then
      if seen.contains key then throw .kind
      let state ← read key value state
      readMembers known read (key :: seen) state rest
    else
      skip value
      readMembers known read seen state rest

/-- Reads fields in declaration order. -/
def readPositions {σ : Type} (mode : Mode) (read : String → Document → σ → Except Fault σ) :
    (seen known : List String) → σ → List Document → Except Fault (List String × σ)
  | seen, _, state, [] => .ok (seen, state)
  | _, [], _, _ :: _ => .error (if mode = .buffered then .kind else .form)
  | seen, name :: known, state, element :: rest => do
    let state ← read name element state
    readPositions mode read (name :: seen) known state rest

/-- Reads a record with the given fields into a state. -/
def readRecord {σ : Type} (mode : Mode) (known required : List String)
    (read : String → Document → σ → Except Fault σ) (start : σ) (document : Document) :
    Except Fault σ := do
  let (seen, state) ←
    match document with
    | .object members fault => do
      let result ← readMembers known read [] start members
      finished fault
      pure result
    | .array elements fault => do
      let result ← readPositions mode read [] known start elements
      finished fault
      pure result
    | other => throw other.mismatch
  if required.all seen.contains then return state else throw .kind

/-- Reads the value of a whole text. -/
def readWhole {α : Type} (read : Document → Except Fault α) (source : String) :
    Except Fault α := do
  let (tree, whole) := ofText source
  let value ← read tree
  if whole then return value else throw .form

end Document

end Json

end Blockwright
