/-!
# Words of a text

White space, the words between separators, and occurrence of one text in another. Ids separate
their words by underscores and hyphens, display names by white space; both are read alike.
-/

namespace Blockwright

namespace Text

/-- Whether a character has the Unicode property White_Space. -/
def isBlank (c : Char) : Bool :=
  let code := c.toNat
  (9 ≤ code && code ≤ 13) || code == 0x20 || code == 0x85 || code == 0xa0 || code == 0x1680
    || (0x2000 ≤ code && code ≤ 0x200a) || code == 0x2028 || code == 0x2029 || code == 0x202f
    || code == 0x205f || code == 0x3000

/-- Whether a character separates words. -/
def isSeparator (c : Char) : Bool := c == '_' || c == '-' || isBlank c

/-- The pieces between the characters that satisfy a test; there is one more than such
characters. -/
def pieces (splits : Char → Bool) : List Char → List (List Char)
  | [] => [[]]
  | c :: rest =>
    if splits c then [] :: pieces splits rest
    else
      match pieces splits rest with
      | [] => [[c]]
      | first :: others => (c :: first) :: others

/-- The maximal separator-free runs of a text in ASCII lower case. -/
def words (subject : String) : List (List Char) :=
  ((pieces isSeparator subject.toList).filter (fun piece => !piece.isEmpty)).map
    (fun piece => piece.map Char.toLower)

/-- Whether a pattern occurs somewhere in a text. -/
def occurs (pattern : List Char) : List Char → Bool
  | [] => pattern.isEmpty
  | c :: rest => pattern.isPrefixOf (c :: rest) || occurs pattern rest

/-- The pieces of a text between occurrences of a character. -/
def splitOnChar (separator : Char) (text : String) : List String :=
  (pieces (· == separator) text.toList).map String.ofList

/-- A text without blanks at either end. -/
def trim (text : String) : String :=
  String.ofList (((text.toList.dropWhile isBlank).reverse.dropWhile isBlank).reverse)

/-- Replaces every occurrence of a pattern, left to right without overlap, after dropping the
given number of characters. -/
def replaceFrom (pattern replacement : List Char) : (dropped : Nat) → List Char → List Char
  | _, [] => []
  | dropped + 1, _ :: rest => replaceFrom pattern replacement dropped rest
  | 0, c :: rest =>
    if pattern.isPrefixOf (c :: rest) then
      replacement ++ replaceFrom pattern replacement (pattern.length - 1) rest
    else c :: replaceFrom pattern replacement 0 rest

/-- A text with every occurrence of a non-empty pattern replaced. -/
def replace (pattern replacement text : String) : String :=
  String.ofList (replaceFrom pattern.toList replacement.toList 0 text.toList)

/-- The rest of a text behind a given beginning, if it has it. -/
def dropStart? (start text : String) : Option String :=
  if start.toList.isPrefixOf text.toList then
    some (String.ofList (text.toList.drop start.toList.length))
  else none

/-- The beginning of a text before a given end, if it has it. -/
def dropEnd? (ending text : String) : Option String :=
  if ending.toList.isSuffixOf text.toList then
    some (String.ofList (text.toList.take (text.toList.length - ending.toList.length)))
  else none

/-- The parts of a text before and behind the first occurrence of a character. -/
def cut? (separator : Char) (text : String) : Option (String × String) :=
  match text.toList.dropWhile (· != separator) with
  | [] => none
  | _ :: rest =>
    some (String.ofList (text.toList.takeWhile (· != separator)), String.ofList rest)

/-- The part of a text behind the last occurrence of a character, or the whole text. -/
def afterLast (separator : Char) (text : String) : String :=
  String.ofList ((text.toList.reverse.takeWhile (· != separator)).reverse)

/-- Texts joined by a separator. -/
def join (separator : String) : List String → String
  | [] => ""
  | [last] => last
  | first :: rest => first ++ separator ++ join separator rest

end Text

end Blockwright
