import Blockwright.Json.Token

/-!
# JSON documents

The second stage of reading: tokens become a tree that goes as far as the text is well formed.
Members keep their order and repetitions, so that a reader of the tree meets the faults of a text
in the order in which they stand.
-/

namespace Blockwright

namespace Json

/-- The faults met at one place by readers with different expectations. -/
structure Break where
  /-- Fault for a reader that needs the value. -/
  needed : Fault
  /-- Fault for a reader that skips the value. -/
  skipped : Fault
  /-- Fault for a reader of a variant, written as its name or as an object with one member. -/
  variant : Fault
  /-- Whether the empty value has been begun there. -/
  empty : Bool := false
deriving DecidableEq, Repr

/-- One fault for every reader. -/
def Break.always (fault : Fault) : Break :=
  { needed := fault, skipped := fault, variant := fault }

/-- The tree of a text, as far as it is well formed. -/
inductive Document where
  | null
  | bool (value : Bool)
  /-- A number, or none beyond the range of doubles. -/
  | number (value : Option Number)
  /-- A quoted text, or none with an unpaired surrogate. -/
  | text (value : Option String)
  /-- Elements in order, and the fault that stands in place of the closing bracket. -/
  | array (elements : List Document) (fault : Option Break)
  /-- Members in order, and the fault that stands in place of the closing brace. -/
  | object (members : List (Option String × Document)) (fault : Option Break)
  | broken (fault : Break)

namespace Document

/-- A container that is being read. -/
inductive Frame where
  /-- An array with its elements so far, latest first. -/
  | array (done : List Document)
  /-- An object with its members so far, latest first. -/
  | object (done : List (Option String × Document))
  /-- An object with its members so far and the key whose value is being read. -/
  | member (done : List (Option String × Document)) (key : Option String)

/-- What may stand next. -/
inductive Place where
  | value
  | element
  | key
  | keyOrEnd
  | colon
  /-- A comma or the end of the innermost container. -/
  | separator

/-- The tree when the given value of the innermost container cannot be completed. -/
def abandonValue (fault : Break) (inner : Document) : List Frame → Document
  | [] => inner
  | .array done :: outer => abandonValue fault (.array (inner :: done).reverse fault) outer
  | .object done :: outer => abandonValue fault (.object done.reverse fault) outer
  | .member done key :: outer =>
    abandonValue fault (.object ((key, inner) :: done).reverse fault) outer

/-- The tree when the reader stops between the parts of the innermost container. -/
def abandon (fault : Break) : List Frame → Document
  | [] => .broken fault
  | .array done :: outer => abandonValue fault (.array done.reverse fault) outer
  | .object done :: outer => abandonValue fault (.object done.reverse fault) outer
  | .member done key :: outer =>
    abandonValue fault (.object ((key, .broken fault) :: done).reverse fault) outer

/-- The tree when a token cannot stand where it does. -/
def refuse (place : Place) (frames : List Frame) (fault : Break) : Document :=
  match place with
  | .value => abandonValue fault (.broken fault) frames
  | .element => abandonValue fault (.broken fault) frames
  | _ => abandon fault frames

/-- The fault of a token in place of a first key. -/
def firstKeyFault : Token → Break
  | .brokenText needed skipped => { needed, skipped, variant := needed }
  | _ => .always .form

/-- The fault of a token in place of a key behind a comma. -/
def nextKeyFault : Token → Break
  | .brokenText needed skipped => { needed, skipped, variant := .form }
  | _ => .always .form

/-- The fault of a token in place of a value. -/
def valueFault : Token → Break
  | .brokenText needed skipped => { needed, skipped, variant := needed }
  | .brokenNull fault => { needed := fault, skipped := fault, variant := .form, empty := true }
  | .broken needed skipped => { needed, skipped, variant := .form }
  | _ => .always .form

/-- The fault of a text that ends at a place. -/
def endFault : Place → Break
  | .key => { Break.always .truncated with variant := .form }
  | _ => .always .truncated

/-- A value for a token that is one by itself. -/
def atom? : Token → Option Document
  | .null => some .null
  | .bool value => some (.bool value)
  | .number value => some (.number value)
  | .text value => some (.text value)
  | _ => none

/-- What a token makes of the containers being read. -/
inductive Outcome where
  | more (place : Place) (frames : List Frame)
  | whole (tree : Document)
  | refused (tree : Document)

/-- A completed value goes into the innermost container; without one it is the whole tree. -/
def complete (value : Document) : List Frame → Outcome
  | [] => .whole value
  | .array done :: outer => .more .separator (.array (value :: done) :: outer)
  | .object done :: outer => .more .separator (.object done :: outer)
  | .member done key :: outer => .more .separator (.object ((key, value) :: done) :: outer)

/-- Reads a token as the start of a value. -/
def startValue (place : Place) (frames : List Frame) : Token → Outcome
  | .openBracket => .more .element (.array [] :: frames)
  | .openBrace => .more .keyOrEnd (.object [] :: frames)
  | token =>
    match atom? token with
    | some value => complete value frames
    | none => .refused (refuse place frames (valueFault token))

/-- Reads one token. -/
def step (place : Place) (frames : List Frame) (token : Token) : Outcome :=
  match place, frames, token with
  | .value, _, token => startValue place frames token
  | .element, .array done :: outer, .closeBracket => complete (.array done.reverse none) outer
  | .element, _, token => startValue place frames token
  | .keyOrEnd, .object done :: outer, .closeBrace => complete (.object done.reverse none) outer
  | .keyOrEnd, .object done :: outer, .text key => .more .colon (.member done key :: outer)
  | .key, .object done :: outer, .text key => .more .colon (.member done key :: outer)
  | .colon, _, .colon => .more .value frames
  | .separator, .array _ :: _, .comma => .more .value frames
  | .separator, .array done :: outer, .closeBracket => complete (.array done.reverse none) outer
  | .separator, .object _ :: _, .comma => .more .key frames
  | .separator, .object done :: outer, .closeBrace => complete (.object done.reverse none) outer
  | .keyOrEnd, _, token => .refused (refuse place frames (firstKeyFault token))
  | .key, _, token => .refused (refuse place frames (nextKeyFault token))
  | _, _, _ => .refused (refuse place frames (.always .form))

/-- The tree of the first value, and the tokens behind it. -/
def build (place : Place) (frames : List Frame) : List Token → Document × List Token
  | [] => (refuse place frames (endFault place), [])
  | token :: rest =>
    match step place frames token with
    | .more place frames => build place frames rest
    | .whole tree => (tree, rest)
    | .refused tree => (tree, [])

/-- The tree of a text, and whether nothing follows its value. -/
def ofText (source : String) : Document × Bool :=
  let (tree, rest) := build .value [] (Token.list source.toList)
  (tree, rest.isEmpty)

/-- The fault of an unfinished container, if it is one. -/
def finished (fault : Option Break) : Except Fault Unit :=
  match fault with
  | some fault => .error fault.needed
  | none => .ok ()

mutual

/-- Passes over a value that is not needed. -/
def skip : Document → Except Fault Unit
  | .null => .ok ()
  | .bool _ => .ok ()
  | .number _ => .ok ()
  | .text _ => .ok ()
  | .array elements fault => do
    skipElements elements
    match fault with
    | some fault => .error fault.skipped
    | none => .ok ()
  | .object members fault => do
    skipMembers members
    match fault with
    | some fault => .error fault.skipped
    | none => .ok ()
  | .broken fault => .error fault.skipped

/-- Passes over elements. -/
def skipElements : List Document → Except Fault Unit
  | [] => .ok ()
  | element :: rest => do
    skip element
    skipElements rest

/-- Passes over members. -/
def skipMembers : List (Option String × Document) → Except Fault Unit
  | [] => .ok ()
  | (_, value) :: rest => do
    skip value
    skipMembers rest

end

/-- How many containers a whole text may nest, and one more. -/
def depthLimit : Nat := 128

mutual

/-- The value of a tree, with containers nested below the given depth only. -/
def toJson (room : Nat) : Document → Except Fault Json
  | .null => .ok .null
  | .bool value => .ok (.bool value)
  | .number (some value) => .ok (.number value)
  | .number none => .error .form
  | .text (some value) => .ok (.text value)
  | .text none => .error .form
  | .array elements fault => do
    if room ≤ 1 then throw .form
    let elements ← toElements (room - 1) elements
    finished fault
    return .array elements
  | .object members fault => do
    if room ≤ 1 then throw .form
    let members ← toMembers (room - 1) members
    finished fault
    return Json.ofMembers members
  | .broken fault => .error fault.needed

/-- The values of elements. -/
def toElements (room : Nat) : List Document → Except Fault (List Json)
  | [] => .ok []
  | element :: rest => do
    let value ← toJson room element
    let others ← toElements room rest
    return value :: others

/-- The values of members. -/
def toMembers (room : Nat) : List (Option String × Document) →
    Except Fault (List (String × Json))
  | [] => .ok []
  | (none, _) :: _ => .error .form
  | (some key, value) :: rest => do
    let value ← toJson room value
    let others ← toMembers room rest
    return (key, value) :: others

end

end Document

/-- The value of a text. -/
def parse (source : String) : Except Fault Json := do
  let (tree, whole) := Document.ofText source
  let value ← tree.toJson Document.depthLimit
  if whole then return value else throw .form

/-- The value of a byte string that is UTF-8 text. -/
def parseBytes (bytes : ByteArray) : Except Fault Json :=
  match String.fromUTF8? bytes with
  | some decoded => parse decoded
  | none => .error .form

end Json

end Blockwright
