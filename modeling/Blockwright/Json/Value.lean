import Blockwright.Decimal.Shortest

/-!
# JSON values

Values with exact integers and doubles. The members of an object are kept in ascending order of
their keys, each key once; the order of texts is that of their UTF-8 bytes.
-/

namespace Blockwright

/-- A JSON number: an integer stays exact, anything else is a double. -/
inductive Json.Number where
  | integer (value : Int)
  | real (value : Float)

/-- A JSON value. -/
inductive Json where
  | null
  | bool (value : Bool)
  | number (value : Json.Number)
  | text (value : String)
  | array (elements : List Json)
  | object (members : List (String × Json))

namespace Json

/-- Adds a member to ascending members unless its key is already there. -/
def addMember (key : String) (value : Json) : List (String × Json) → List (String × Json)
  | [] => [(key, value)]
  | (other, old) :: rest =>
    if key < other then (key, value) :: (other, old) :: rest
    else if key = other then (other, old) :: rest
    else (other, old) :: addMember key value rest

/-- Ascending members from members in any order; the last of several with one key counts. -/
def sortMembers (members : List (String × Json)) : List (String × Json) :=
  members.foldr (fun member sorted => addMember member.1 member.2 sorted) []

/-- An object with the given members; the last of several with one key counts. -/
def ofMembers (members : List (String × Json)) : Json := object (sortMembers members)

/-- An object with a single member. -/
def single (key : String) (value : Json) : Json := object [(key, value)]

/-- An array of texts. -/
def texts (values : List String) : Json := array (values.map text)

/-- A non-negative integer. -/
def nat (value : Nat) : Json := number (.integer value)

/-- A double, or the empty value if it is not finite. -/
def double (value : Float) : Json := if value.isFinite then number (.real value) else null

/-- The encoded value, or the empty value without one. -/
def optional {α : Type} (encode : α → Json) : Option α → Json
  | some value => encode value
  | none => null

/-- A text, or the empty value. -/
def optionalText : Option String → Json := optional text

/-- The value of a member with the given key. -/
def lookup (key : String) : List (String × Json) → Option Json
  | [] => none
  | (other, value) :: rest => if other = key then some value else lookup key rest

/-- The member of an object with the given key. -/
def get? (key : String) : Json → Option Json
  | object members => lookup key members
  | _ => none

/-- The text, if the value is one. -/
def text? : Json → Option String
  | text value => some value
  | _ => none

mutual

/-- The value with the members of every object in ascending order. -/
def sorted : Json → Json
  | array elements => array (sortedElements elements)
  | object members => object (sortMembers (sortedValues members))
  | other => other

/-- The elements with the members of every object in ascending order. -/
def sortedElements : List Json → List Json
  | [] => []
  | element :: rest => sorted element :: sortedElements rest

/-- The members with the members of every object in their values in ascending order. -/
def sortedValues : List (String × Json) → List (String × Json)
  | [] => []
  | (key, value) :: rest => (key, sorted value) :: sortedValues rest

end

end Json

end Blockwright
