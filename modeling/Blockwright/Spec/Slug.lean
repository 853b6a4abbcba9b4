import Blockwright.Text.Words

/-!
# Ids and display names

An id is a slug: a lower-case letter followed by lower-case letters, digits and underscores,
at most sixty-four characters. Display names default to the title-cased id.
-/

namespace Blockwright

namespace Slug

/-- Greatest length of an id. -/
def limit : Nat := 64

/-- Why a text is not an id. -/
inductive Fault where
  | empty
  /-- There are more characters than the limit. -/
  | tooLong
  /-- The first character is not a lower-case letter. -/
  | badStart
  | badCharacter
deriving DecidableEq, Repr

def Fault.message : Fault → String
  | .empty => "empty"
  | .tooLong => "longer than 64 characters"
  | .badStart => "must start with a lowercase letter"
  | .badCharacter => "only lowercase letters, digits and '_' are allowed"

/-- Whether a character may stand inside an id. -/
def isInner (c : Char) : Bool := c.isLower || c.isDigit || c == '_'

/-- The fault of a text as an id, if it has one. Its length is counted in UTF-8 bytes. -/
def fault? (id : String) : Option Fault :=
  match id.toList with
  | [] => some .empty
  | first :: rest =>
    if limit < id.utf8ByteSize then some .tooLong
    else if !first.isLower then some .badStart
    else if !rest.all isInner then some .badCharacter
    else none

/-- Whether a text is an id. -/
def isValid (id : String) : Bool := (fault? id).isNone

/-- Whether a text is the id of a mod, which has at least two characters. -/
def isModId (id : String) : Bool := 2 ≤ id.utf8ByteSize && isValid id

/-- A word with its first letter in upper case. -/
def capitalize : List Char → List Char
  | [] => []
  | first :: rest => first.toUpper :: rest

/-- The words of an id, capitalized and separated by spaces. -/
def titleCase (id : String) : String :=
  let words := (Text.pieces (· == '_') id.toList).filter (fun word => !word.isEmpty)
  Text.join " " (words.map (fun word => String.ofList (capitalize word)))

/-- The name of a reference: what stands behind its last colon, tag marks dropped. -/
def localName (reference : String) : String :=
  Text.afterLast ':' (String.ofList (reference.toList.dropWhile (· == '#')))

end Slug

end Blockwright
