import Blockwright.Json.Document
import Blockwright.Proofs.Json.Members
import Blockwright.Proofs.Json.Numbers
import Blockwright.Proofs.Json.Texts

/-!
# Reading written values back

The written form of a value is cut into the tokens of the value, and these build its tree. The
value of the tree is the one that was written, with its members in order, if its numbers are read
back and it is not nested too deeply.
-/

namespace Blockwright

namespace Json

/-! ## What is read -/

/-- The number that is read from the written form of a number. -/
def Number.reread (number : Number) : Number :=
  match Token.list (numberChars number) with
  | [.number (some read)] => read
  | _ => number

/-- Whether the written form of a number can be read. -/
def Number.Legible (number : Number) : Prop := number.ReadsAs number.reread

theorem Number.ReadsAs.reread_eq {number read : Number} (reads : number.ReadsAs read) :
    number.reread = read := by
  have tokens := reads.list_numberChars Token.delimits_nil
  rw [List.append_nil, show Token.list [] = [] by simp [Token.list]] at tokens
  rw [Number.reread, tokens]

theorem Number.ReadsAs.legible {number read : Number} (reads : number.ReadsAs read) :
    number.Legible := by
  rw [Legible, reads.reread_eq]
  exact reads

mutual

/-- The value with every number read from its written form. -/
def reread : Json → Json
  | number value => number value.reread
  | array elements => array (rereadElements elements)
  | object members => object (rereadMembers members)
  | other => other

/-- The elements with every number read from its written form. -/
def rereadElements : List Json → List Json
  | [] => []
  | element :: rest => reread element :: rereadElements rest

/-- The members with every number read from its written form. -/
def rereadMembers : List (String × Json) → List (String × Json)
  | [] => []
  | (key, value) :: rest => (key, reread value) :: rereadMembers rest

end

mutual

/-- Whether every number of a value passes a test, and its containers are nested below a depth. -/
def Passes (test : Number → Prop) (room : Nat) : Json → Prop
  | number value => test value
  | array elements => 1 < room ∧ PassElements test (room - 1) elements
  | object members => 1 < room ∧ PassMembers test (room - 1) members
  | _ => True

/-- Whether every number of elements passes a test. -/
def PassElements (test : Number → Prop) (room : Nat) : List Json → Prop
  | [] => True
  | element :: rest => Passes test room element ∧ PassElements test room rest

/-- Whether every number in the values of members passes a test. -/
def PassMembers (test : Number → Prop) (room : Nat) : List (String × Json) → Prop
  | [] => True
  | (_, value) :: rest => Passes test room value ∧ PassMembers test room rest

end

/-- Whether a value is read from its written form, with its numbers reread. -/
def Legible (room : Nat) (value : Json) : Prop := value.Passes Number.Legible room

/-- Whether all numbers of a value are integers that are read back as they are. -/
def IsExact (room : Nat) (value : Json) : Prop := value.Passes Number.IsExact room

theorem passElements_iff {test : Number → Prop} {room : Nat} {elements : List Json} :
    PassElements test room elements ↔ ∀ element ∈ elements, element.Passes test room := by
  induction elements with
  | nil => simp [PassElements]
  | cons element rest ih => rw [PassElements, ih, List.forall_mem_cons]

theorem passMembers_iff {test : Number → Prop} {room : Nat} {members : List (String × Json)} :
    PassMembers test room members ↔ ∀ member ∈ members, member.2.Passes test room := by
  induction members with
  | nil => simp [PassMembers]
  | cons member rest ih =>
    obtain ⟨key, value⟩ := member
    rw [PassMembers, ih, List.forall_mem_cons]

/-! ## Tokens -/

mutual

/-- The tokens of a value. -/
def tokens : Json → List Token
  | null => [.null]
  | bool value => [.bool value]
  | number value => [.number (some value.reread)]
  | text value => [.text (some value)]
  | array [] => [.openBracket, .closeBracket]
  | array (first :: rest) => .openBracket :: (tokens first ++ elementTokens rest)
  | object [] => [.openBrace, .closeBrace]
  | object ((key, value) :: rest) =>
    .openBrace :: .text (some key) :: .colon :: (tokens value ++ memberTokens rest)

/-- The tokens of the elements after the first, and of the closing bracket. -/
def elementTokens : List Json → List Token
  | [] => [.closeBracket]
  | element :: rest => .comma :: (tokens element ++ elementTokens rest)

/-- The tokens of the members after the first, and of the closing brace. -/
def memberTokens : List (String × Json) → List Token
  | [] => [.closeBrace]
  | (key, value) :: rest =>
    .comma :: .text (some key) :: .colon :: (tokens value ++ memberTokens rest)

end

namespace Token

theorem list_space {c : Char} (space : isSpace c = true) (rest : List Char) :
    list (c :: rest) = list rest := by
  rw [list, if_pos space]

theorem list_newline (level : Nat) (rest : List Char) :
    list (newline level ++ rest) = list rest := by
  have spaces : ∀ count, list (List.replicate count ' ' ++ rest) = list rest := by
    intro count
    induction count with
    | zero => rfl
    | succ count ih => rw [List.replicate_succ, List.cons_append, list_space (by decide), ih]
  rw [newline, List.cons_append, list_space (by decide), spaces]

theorem list_punctuation {c : Char} {token : Token} (space : isSpace c = false)
    (scanned : ∀ rest, scan c rest = (token, rest)) (whole : token.isBroken = false)
    (rest : List Char) : list (c :: rest) = token :: list rest := by
  rw [list, if_neg (by simp [space]), scanned]
  simp [whole]

theorem list_openBracket (rest : List Char) : list ('[' :: rest) = .openBracket :: list rest :=
  list_punctuation (by decide) (fun _ => rfl) rfl rest

theorem list_closeBracket (rest : List Char) : list (']' :: rest) = .closeBracket :: list rest :=
  list_punctuation (by decide) (fun _ => rfl) rfl rest

theorem list_openBrace (rest : List Char) : list ('\x7b' :: rest) = .openBrace :: list rest :=
  list_punctuation (by decide) (fun _ => rfl) rfl rest

theorem list_closeBrace (rest : List Char) : list ('\x7d' :: rest) = .closeBrace :: list rest :=
  list_punctuation (by decide) (fun _ => rfl) rfl rest

theorem list_comma (rest : List Char) : list (',' :: rest) = .comma :: list rest :=
  list_punctuation (by decide) (fun _ => rfl) rfl rest

theorem list_colon (rest : List Char) : list (':' :: rest) = .colon :: list rest :=
  list_punctuation (by decide) (fun _ => rfl) rfl rest

theorem list_null (rest : List Char) :
    list ('n' :: 'u' :: 'l' :: 'l' :: rest) = .null :: list rest := by
  rw [list, if_neg (by decide)]
  simp [scan, scanWord, isBroken]

theorem list_true (rest : List Char) :
    list ('t' :: 'r' :: 'u' :: 'e' :: rest) = .bool true :: list rest := by
  rw [list, if_neg (by decide)]
  simp [scan, scanWord, isBroken]

theorem list_false (rest : List Char) :
    list ('f' :: 'a' :: 'l' :: 's' :: 'e' :: rest) = .bool false :: list rest := by
  rw [list, if_neg (by decide)]
  simp [scan, scanWord, isBroken]

theorem delimits_newline (level : Nat) (rest : List Char) : Delimits (newline level ++ rest) :=
  delimits_cons (by decide) (by decide) (by decide) (by decide)

theorem delimits_prettyElements (level : Nat) (elements : List Json) (rest : List Char) :
    Delimits (prettyElements level elements ++ rest) := by
  cases elements with
  | nil =>
    rw [prettyElements, List.append_assoc]
    exact delimits_newline level _
  | cons => exact delimits_cons (by decide) (by decide) (by decide) (by decide)

theorem delimits_prettyMembers (level : Nat) (members : List (String × Json)) (rest : List Char) :
    Delimits (prettyMembers level members ++ rest) := by
  cases members with
  | nil =>
    rw [prettyMembers, List.append_assoc]
    exact delimits_newline level _
  | cons => exact delimits_cons (by decide) (by decide) (by decide) (by decide)

mutual

theorem list_prettyChars (room level : Nat) (rest : List Char) (delimits : Delimits rest) :
    (value : Json) → value.Passes Number.Legible room →
      list (prettyChars level value ++ rest) = value.tokens ++ list rest
  | .null, _ => list_null rest
  | .bool true, _ => list_true rest
  | .bool false, _ => list_false rest
  | .number value, legible => by
    rw [prettyChars, tokens]
    exact legible.list_numberChars delimits
  | .text value, _ => list_quoted value rest
  | .array [], _ => by
    rw [prettyChars, tokens, List.cons_append, List.cons_append, List.nil_append,
      list_openBracket, list_closeBracket]
    rfl
  | .array (first :: others), legible => by
    obtain ⟨-, firstLegible, othersLegible⟩ := legible
    rw [prettyChars, tokens, List.cons_append, list_openBracket, List.append_assoc,
      List.append_assoc, list_newline,
      list_prettyChars (room - 1) (level + 1) _ (delimits_prettyElements level others rest) first
        firstLegible,
      list_prettyElements (room - 1) level rest others othersLegible]
    simp
  | .object [], _ => by
    rw [prettyChars, tokens, List.cons_append, List.cons_append, List.nil_append,
      list_openBrace, list_closeBrace]
    rfl
  | .object ((key, value) :: others), legible => by
    obtain ⟨-, valueLegible, othersLegible⟩ := legible
    rw [prettyChars, tokens, List.cons_append, list_openBrace, List.append_assoc,
      List.append_assoc, list_newline, list_quoted, List.cons_append, list_colon,
      List.cons_append, list_space (by decide), List.append_assoc,
      list_prettyChars (room - 1) (level + 1) _ (delimits_prettyMembers level others rest) value
        valueLegible,
      list_prettyMembers (room - 1) level rest others othersLegible]
    simp

theorem list_prettyElements (room level : Nat) (rest : List Char) :
    (elements : List Json) → PassElements Number.Legible room elements →
      list (prettyElements level elements ++ rest) = elementTokens elements ++ list rest
  | [], _ => by
    rw [prettyElements, elementTokens, List.append_assoc, list_newline, List.singleton_append,
      list_closeBracket]
    rfl
  | element :: others, legible => by
    obtain ⟨elementLegible, othersLegible⟩ := legible
    rw [prettyElements, elementTokens, List.cons_append, list_comma, List.append_assoc,
      List.append_assoc, list_newline,
      list_prettyChars room (level + 1) _ (delimits_prettyElements level others rest) element
        elementLegible,
      list_prettyElements room level rest others othersLegible]
    simp

theorem list_prettyMembers (room level : Nat) (rest : List Char) :
    (members : List (String × Json)) → PassMembers Number.Legible room members →
      list (prettyMembers level members ++ rest) = memberTokens members ++ list rest
  | [], _ => by
    rw [prettyMembers, memberTokens, List.append_assoc, list_newline, List.singleton_append,
      list_closeBrace]
    rfl
  | (key, value) :: others, legible => by
    obtain ⟨valueLegible, othersLegible⟩ := legible
    rw [prettyMembers, memberTokens, List.cons_append, list_comma, List.append_assoc,
      List.append_assoc, list_newline, list_quoted, List.cons_append, list_colon,
      List.cons_append, list_space (by decide), List.append_assoc,
      list_prettyChars room (level + 1) _ (delimits_prettyMembers level others rest) value
        valueLegible,
      list_prettyMembers room level rest others othersLegible]
    simp

end

end Token

/-! ## Trees -/

mutual

/-- The tree of a value. -/
def document : Json → Document
  | null => .null
  | bool value => .bool value
  | number value => .number (some value.reread)
  | text value => .text (some value)
  | array elements => .array (elementDocuments elements) none
  | object members => .object (memberDocuments members) none

/-- The trees of elements. -/
def elementDocuments : List Json → List Document
  | [] => []
  | element :: rest => document element :: elementDocuments rest

/-- The trees of members. -/
def memberDocuments : List (String × Json) → List (Option String × Document)
  | [] => []
  | (key, value) :: rest => (some key, document value) :: memberDocuments rest

end

namespace Document

/-- What is built after a token has been read. -/
def resume : Outcome → List Token → Document × List Token
  | .more place frames, rest => build place frames rest
  | .whole tree, rest => (tree, rest)
  | .refused tree, _ => (tree, [])

theorem build_cons (place : Place) (frames : List Frame) (token : Token) (rest : List Token) :
    build place frames (token :: rest) = resume (step place frames token) rest := by
  rw [build]
  cases step place frames token <;> rfl

theorem build_element (done : List Document) (outer : List Frame) (value : Json)
    (rest : List Token) :
    build .element (.array done :: outer) (value.tokens ++ rest) =
      build .value (.array done :: outer) (value.tokens ++ rest) := by
  cases value with
  | null => rfl
  | bool value => rfl
  | number value => rfl
  | text value => rfl
  | array elements => cases elements <;> rfl
  | object members =>
    cases members with
    | nil => rfl
    | cons member others => rfl

mutual

/-- The tokens of a value build its tree. -/
theorem build_tokens (frames : List Frame) (rest : List Token) : (value : Json) →
    build .value frames (value.tokens ++ rest) = resume (complete value.document frames) rest
  | .null => build_cons .value frames .null rest
  | .bool value => build_cons .value frames (.bool value) rest
  | .number value => build_cons .value frames (.number (some value.reread)) rest
  | .text value => build_cons .value frames (.text (some value)) rest
  | .array [] => by
    rw [tokens, document, List.cons_append, build_cons]
    exact build_cons .element (.array [] :: frames) .closeBracket rest
  | .array (first :: others) => by
    rw [tokens, List.cons_append, build_cons, List.append_assoc]
    rw [show resume (step .value frames .openBracket) = build .element (.array [] :: frames)
      from rfl]
    rw [build_element, build_tokens (.array [] :: frames) _ first, document, elementDocuments]
    exact build_elementTokens [first.document] frames rest others
  | .object [] => by
    rw [tokens, document, List.cons_append, build_cons]
    exact build_cons .keyOrEnd (.object [] :: frames) .closeBrace rest
  | .object ((key, value) :: others) => by
    rw [tokens, List.cons_append, build_cons]
    rw [show resume (step .value frames .openBrace) = build .keyOrEnd (.object [] :: frames)
      from rfl]
    rw [List.cons_append, build_cons, List.cons_append]
    rw [show resume (step .keyOrEnd (.object [] :: frames) (.text (some key))) =
      build .colon (.member [] (some key) :: frames) from rfl]
    rw [build_cons, List.append_assoc]
    rw [show resume (step .colon (.member [] (some key) :: frames) .colon) =
      build .value (.member [] (some key) :: frames) from rfl]
    rw [build_tokens (.member [] (some key) :: frames) _ value, document, memberDocuments]
    exact build_memberTokens [(some key, value.document)] frames rest others

theorem build_elementTokens (done : List Document) (frames : List Frame) (rest : List Token) :
    (elements : List Json) →
      build .separator (.array done :: frames) (elementTokens elements ++ rest) =
        resume (complete (.array (done.reverse ++ elementDocuments elements) none) frames) rest
  | [] => by
    rw [elementTokens, elementDocuments, List.append_nil]
    exact build_cons .separator (.array done :: frames) .closeBracket rest
  | element :: others => by
    rw [elementTokens, List.cons_append, build_cons, List.append_assoc]
    rw [show resume (step .separator (.array done :: frames) .comma) =
      build .value (.array done :: frames) from rfl]
    rw [build_tokens (.array done :: frames) _ element, elementDocuments]
    have further := build_elementTokens (element.document :: done) frames rest others
    rw [List.reverse_cons, List.append_assoc] at further
    exact further

theorem build_memberTokens (done : List (Option String × Document)) (frames : List Frame)
    (rest : List Token) : (members : List (String × Json)) →
      build .separator (.object done :: frames) (memberTokens members ++ rest) =
        resume (complete (.object (done.reverse ++ memberDocuments members) none) frames) rest
  | [] => by
    rw [memberTokens, memberDocuments, List.append_nil]
    exact build_cons .separator (.object done :: frames) .closeBrace rest
  | (key, value) :: others => by
    rw [memberTokens, List.cons_append, build_cons, List.cons_append]
    rw [show resume (step .separator (.object done :: frames) .comma) =
      build .key (.object done :: frames) from rfl]
    rw [build_cons, List.cons_append]
    rw [show resume (step .key (.object done :: frames) (.text (some key))) =
      build .colon (.member done (some key) :: frames) from rfl]
    rw [build_cons, List.append_assoc]
    rw [show resume (step .colon (.member done (some key) :: frames) .colon) =
      build .value (.member done (some key) :: frames) from rfl]
    rw [build_tokens (.member done (some key) :: frames) _ value, memberDocuments]
    have further := build_memberTokens ((some key, value.document) :: done) frames rest others
    rw [List.reverse_cons, List.append_assoc] at further
    exact further

end

end Document

/-! ## Values -/

mutual

/-- The value of the tree of a value has its members in order and its numbers reread. -/
theorem toJson_document (room : Nat) : (value : Json) → value.Passes Number.Legible room →
    value.document.toJson room = .ok value.reread.sorted
  | .null, _ => rfl
  | .bool _, _ => rfl
  | .number _, _ => rfl
  | .text _, _ => rfl
  | .array elements, legible => by
    obtain ⟨room, elementsLegible⟩ := legible
    simp only [document, Document.toJson, if_neg (Nat.not_le.2 room), pure, Except.pure, bind,
      Except.bind, toElements_elementDocuments _ elements elementsLegible, Document.finished,
      reread, sorted]
  | .object members, legible => by
    obtain ⟨room, membersLegible⟩ := legible
    simp only [document, Document.toJson, if_neg (Nat.not_le.2 room), pure, Except.pure, bind,
      Except.bind, toMembers_memberDocuments _ members membersLegible, Document.finished,
      reread, sorted, ofMembers]

theorem toElements_elementDocuments (room : Nat) : (elements : List Json) →
    PassElements Number.Legible room elements →
      Document.toElements room (elementDocuments elements) =
        .ok (sortedElements (rereadElements elements))
  | [], _ => rfl
  | element :: others, legible => by
    obtain ⟨elementLegible, othersLegible⟩ := legible
    simp only [elementDocuments, Document.toElements, toJson_document room element elementLegible,
      toElements_elementDocuments room others othersLegible, bind, Except.bind, pure, Except.pure,
      rereadElements, sortedElements]

theorem toMembers_memberDocuments (room : Nat) : (members : List (String × Json)) →
    PassMembers Number.Legible room members →
      Document.toMembers room (memberDocuments members) =
        .ok (sortedValues (rereadMembers members))
  | [], _ => rfl
  | (key, value) :: others, legible => by
    obtain ⟨valueLegible, othersLegible⟩ := legible
    simp only [memberDocuments, Document.toMembers, toJson_document room value valueLegible,
      toMembers_memberDocuments room others othersLegible, bind, Except.bind, pure, Except.pure,
      rereadMembers, sortedValues]

end

/-! ## Members in order -/

theorem rereadMembers_eq (members : List (String × Json)) :
    rereadMembers members = members.map fun member => (member.1, member.2.reread) := by
  induction members with
  | nil => rfl
  | cons member rest ih => rw [rereadMembers, ih, List.map_cons]

theorem sortedValues_eq (members : List (String × Json)) :
    sortedValues members = members.map fun member => (member.1, member.2.sorted) := by
  induction members with
  | nil => rfl
  | cons member rest ih => rw [sortedValues, ih, List.map_cons]

mutual

/-- Putting members in order once is enough. -/
theorem sorted_sorted : (value : Json) → value.sorted.sorted = value.sorted
  | .null => rfl
  | .bool _ => rfl
  | .number _ => rfl
  | .text _ => rfl
  | .array elements => by
    rw [sorted, sorted, sortedElements_sortedElements elements]
  | .object members => by
    rw [sorted, sorted, sortedValues_eq, ← sortMembers_map, ← sortedValues_eq,
      sortedValues_sortedValues members, sortMembers_eq_self (ascending_sortMembers _)]

theorem sortedElements_sortedElements : (elements : List Json) →
    sortedElements (sortedElements elements) = sortedElements elements
  | [] => rfl
  | element :: rest => by
    rw [sortedElements, sortedElements, sorted_sorted element, sortedElements_sortedElements rest]

theorem sortedValues_sortedValues : (members : List (String × Json)) →
    sortedValues (sortedValues members) = sortedValues members
  | [] => rfl
  | (key, value) :: rest => by
    rw [sortedValues, sortedValues, sorted_sorted value, sortedValues_sortedValues rest]

end

mutual

/-- Numbers can be reread before or after members are put in order. -/
theorem reread_sorted : (value : Json) → value.sorted.reread = value.reread.sorted
  | .null => rfl
  | .bool _ => rfl
  | .number _ => rfl
  | .text _ => rfl
  | .array elements => by
    rw [sorted, reread, reread, sorted, rereadElements_sortedElements elements]
  | .object members => by
    rw [sorted, reread, reread, sorted, rereadMembers_eq, ← sortMembers_map, ← rereadMembers_eq,
      rereadMembers_sortedValues members]

theorem rereadElements_sortedElements : (elements : List Json) →
    rereadElements (sortedElements elements) = sortedElements (rereadElements elements)
  | [] => rfl
  | element :: rest => by
    rw [sortedElements, rereadElements, rereadElements, sortedElements, reread_sorted element,
      rereadElements_sortedElements rest]

theorem rereadMembers_sortedValues : (members : List (String × Json)) →
    rereadMembers (sortedValues members) = sortedValues (rereadMembers members)
  | [] => rfl
  | (key, value) :: rest => by
    rw [sortedValues, rereadMembers, rereadMembers, sortedValues, reread_sorted value,
      rereadMembers_sortedValues rest]

end

mutual

theorem Passes.sorted {test : Number → Prop} {room : Nat} : {value : Json} →
    value.Passes test room → value.sorted.Passes test room
  | .null, _ => trivial
  | .bool _, _ => trivial
  | .number _, passes => passes
  | .text _, _ => trivial
  | .array elements, passes => ⟨passes.1, passElements_sorted elements passes.2⟩
  | .object members, passes => by
    refine ⟨passes.1, passMembers_iff.2 fun member isMember => ?_⟩
    exact passMembers_iff.1 (passMembers_sorted members passes.2) member
      (mem_of_mem_sortMembers isMember)

theorem passElements_sorted {test : Number → Prop} {room : Nat} : (elements : List Json) →
    PassElements test room elements → PassElements test room (sortedElements elements)
  | [], _ => trivial
  | _ :: rest, passes => ⟨Passes.sorted passes.1, passElements_sorted rest passes.2⟩

theorem passMembers_sorted {test : Number → Prop} {room : Nat} :
    (members : List (String × Json)) →
      PassMembers test room members → PassMembers test room (sortedValues members)
  | [], _ => trivial
  | (_, _) :: rest, passes => ⟨Passes.sorted passes.1, passMembers_sorted rest passes.2⟩

end

mutual

theorem Passes.imp {test other : Number → Prop} (implies : ∀ number, test number → other number)
    {room : Nat} : {value : Json} → value.Passes test room → value.Passes other room
  | .null, _ => trivial
  | .bool _, _ => trivial
  | .number _, passes => implies _ passes
  | .text _, _ => trivial
  | .array elements, passes => ⟨passes.1, passElements_imp implies elements passes.2⟩
  | .object members, passes => ⟨passes.1, passMembers_imp implies members passes.2⟩

theorem passElements_imp {test other : Number → Prop}
    (implies : ∀ number, test number → other number) {room : Nat} : (elements : List Json) →
    PassElements test room elements → PassElements other room elements
  | [], _ => trivial
  | _ :: rest, passes => ⟨Passes.imp implies passes.1, passElements_imp implies rest passes.2⟩

theorem passMembers_imp {test other : Number → Prop}
    (implies : ∀ number, test number → other number) {room : Nat} :
    (members : List (String × Json)) →
      PassMembers test room members → PassMembers other room members
  | [], _ => trivial
  | (_, _) :: rest, passes => ⟨Passes.imp implies passes.1, passMembers_imp implies rest passes.2⟩

end

/-! ## Texts -/

/-- The pretty form of a value is read as its tree, with its members in order. -/
theorem ofText_pretty {value : Json} (legible : value.Legible Document.depthLimit) :
    Document.ofText value.pretty = (value.sorted.document, true) := by
  have sortedLegible : value.sorted.Passes Number.Legible Document.depthLimit :=
    Passes.sorted legible
  have tokenList :
      Token.list (prettyChars 0 value.sorted ++ ['\n']) = value.sorted.tokens ++ [] := by
    rw [Token.list_prettyChars Document.depthLimit 0 ['\n'] (Token.delimits_newline 0 [])
      value.sorted sortedLegible, Token.list_space (by decide), show Token.list [] = [] by
      simp [Token.list]]
  rw [Document.ofText, pretty, String.toList_ofList, tokenList, Document.build_tokens]
  rfl

/-- The pretty form of a value is read as the value, with its members in order and its numbers
reread. -/
theorem parse_pretty {value : Json} (legible : value.Legible Document.depthLimit) :
    parse value.pretty = .ok value.reread.sorted := by
  have read := toJson_document Document.depthLimit value.sorted (Passes.sorted legible)
  rw [reread_sorted, sorted_sorted] at read
  rw [parse, ofText_pretty legible]
  simp [read, bind, Except.bind, pure, Except.pure]

mutual

theorem IsExact.legible {room : Nat} : {value : Json} → value.Passes Number.IsExact room →
    value.Passes Number.Legible room ∧ value.reread = value
  | .null, _ => ⟨trivial, rfl⟩
  | .bool _, _ => ⟨trivial, rfl⟩
  | .number _, exact => ⟨exact.readsAs.legible, by rw [reread, exact.readsAs.reread_eq]⟩
  | .text _, _ => ⟨trivial, rfl⟩
  | .array elements, exact => by
    obtain ⟨legible, same⟩ := passElements_exact elements exact.2
    exact ⟨⟨exact.1, legible⟩, by rw [reread, same]⟩
  | .object members, exact => by
    obtain ⟨legible, same⟩ := passMembers_exact members exact.2
    exact ⟨⟨exact.1, legible⟩, by rw [reread, same]⟩

theorem passElements_exact {room : Nat} : (elements : List Json) →
    PassElements Number.IsExact room elements →
      PassElements Number.Legible room elements ∧ rereadElements elements = elements
  | [], _ => ⟨trivial, rfl⟩
  | element :: rest, exact => by
    obtain ⟨legible, same⟩ := IsExact.legible exact.1
    obtain ⟨restLegible, restSame⟩ := passElements_exact rest exact.2
    exact ⟨⟨legible, restLegible⟩, by rw [rereadElements, same, restSame]⟩

theorem passMembers_exact {room : Nat} : (members : List (String × Json)) →
    PassMembers Number.IsExact room members →
      PassMembers Number.Legible room members ∧ rereadMembers members = members
  | [], _ => ⟨trivial, rfl⟩
  | (key, value) :: rest, exact => by
    obtain ⟨legible, same⟩ := IsExact.legible exact.1
    obtain ⟨restLegible, restSame⟩ := passMembers_exact rest exact.2
    exact ⟨⟨legible, restLegible⟩, by rw [rereadMembers, same, restSame]⟩

end

/-- A value without other numbers than integers of 64 bits is read back as it is, with its members
in order. -/
theorem IsExact.parse_pretty {value : Json} (exact : value.IsExact Document.depthLimit) :
    parse value.pretty = .ok value.sorted := by
  obtain ⟨legible, same⟩ := IsExact.legible exact
  rw [Json.parse_pretty legible, same]

/-- The bytes of a text are read as the text. -/
theorem parseBytes_toUTF8 (source : String) : parseBytes source.toUTF8 = parse source := by
  have decoded : String.fromUTF8? source.toUTF8 = some source := by
    have valid : source.toUTF8.IsValidUTF8 := source.isValidUTF8
    rw [String.fromUTF8?, dif_pos valid]
    exact congrArg some (String.toByteArray_inj.1 rfl)
  rw [parseBytes, decoded]

end Json

end Blockwright
