import Blockwright.Digest.Sha256
import Blockwright.Proofs.Json.Reordering
import Blockwright.Proofs.Json.RoundTrip
import Blockwright.Proofs.Outcome

/-!
# The canonical form

Without white space a value is cut into the same tokens as in the pretty form. Both forms are
therefore read as the value itself, with its members in order, and the canonical form tells two
values apart unless they are alike.
-/

namespace Blockwright

namespace Json

/-! ## Tokens -/

namespace Token

theorem delimits_compactElements (elements : List Json) (rest : List Char) :
    Delimits (compactElements elements ++ rest) := by
  cases elements <;> exact delimits_cons (by decide) (by decide) (by decide) (by decide)

theorem delimits_compactMembers (members : List (String × Json)) (rest : List Char) :
    Delimits (compactMembers members ++ rest) := by
  cases members <;> exact delimits_cons (by decide) (by decide) (by decide) (by decide)

mutual

theorem list_compactChars (room : Nat) (rest : List Char) (delimits : Delimits rest) :
    (value : Json) → value.Passes Number.Legible room →
      list (compactChars value ++ rest) = value.tokens ++ list rest
  | .null, _ => list_null rest
  | .bool true, _ => list_true rest
  | .bool false, _ => list_false rest
  | .number value, legible => by
    rw [compactChars, tokens]
    exact legible.list_numberChars delimits
  | .text value, _ => list_quoted value rest
  | .array [], _ => by
    rw [compactChars, tokens, List.cons_append, List.cons_append, List.nil_append,
      list_openBracket, list_closeBracket]
    rfl
  | .array (first :: others), legible => by
    obtain ⟨-, firstLegible, othersLegible⟩ := legible
    rw [compactChars, tokens, List.cons_append, list_openBracket, List.append_assoc,
      list_compactChars (room - 1) _ (delimits_compactElements others rest) first firstLegible,
      list_compactElements (room - 1) rest others othersLegible]
    simp
  | .object [], _ => by
    rw [compactChars, tokens, List.cons_append, List.cons_append, List.nil_append,
      list_openBrace, list_closeBrace]
    rfl
  | .object ((key, value) :: others), legible => by
    obtain ⟨-, valueLegible, othersLegible⟩ := legible
    rw [compactChars, tokens, List.cons_append, list_openBrace, List.append_assoc, list_quoted,
      List.cons_append, list_colon, List.append_assoc,
      list_compactChars (room - 1) _ (delimits_compactMembers others rest) value valueLegible,
      list_compactMembers (room - 1) rest others othersLegible]
    simp

theorem list_compactElements (room : Nat) (rest : List Char) :
    (elements : List Json) → PassElements Number.Legible room elements →
      list (compactElements elements ++ rest) = elementTokens elements ++ list rest
  | [], _ => list_closeBracket rest
  | element :: others, legible => by
    obtain ⟨elementLegible, othersLegible⟩ := legible
    rw [compactElements, elementTokens, List.cons_append, list_comma, List.append_assoc,
      list_compactChars room _ (delimits_compactElements others rest) element elementLegible,
      list_compactElements room rest others othersLegible]
    simp

theorem list_compactMembers (room : Nat) (rest : List Char) :
    (members : List (String × Json)) → PassMembers Number.Legible room members →
      list (compactMembers members ++ rest) = memberTokens members ++ list rest
  | [], _ => list_closeBrace rest
  | (key, value) :: others, legible => by
    obtain ⟨valueLegible, othersLegible⟩ := legible
    rw [compactMembers, memberTokens, List.cons_append, list_comma, List.append_assoc, list_quoted,
      List.cons_append, list_colon, List.append_assoc,
      list_compactChars room _ (delimits_compactMembers others rest) value valueLegible,
      list_compactMembers room rest others othersLegible]
    simp

end

end Token

/-! ## Reading -/

variable {value other : Json}

theorem ofText_compactChars (legible : value.Legible Document.depthLimit) :
    Document.ofText (String.ofList (compactChars value)) = (value.document, true) := by
  have tokenList : Token.list (compactChars value) = value.tokens ++ [] := by
    have cut := Token.list_compactChars Document.depthLimit [] Token.delimits_nil value legible
    rwa [List.append_nil, show Token.list [] = [] by simp [Token.list]] at cut
  rw [Document.ofText, String.toList_ofList, tokenList, Document.build_tokens]
  rfl

/-- A value that is spelled without white space, its members in any order, is read as the value with
its members in order. -/
theorem parse_compactChars (exact : value.IsExact Document.depthLimit) :
    parse (String.ofList (compactChars value)) = .ok value.sorted := by
  obtain ⟨legible, same⟩ := IsExact.legible exact
  have read := toJson_document Document.depthLimit value legible
  rw [same] at read
  rw [parse, ofText_compactChars legible]
  simp [read, bind, Except.bind, pure, Except.pure]

theorem parse_canonical (exact : value.IsExact Document.depthLimit) :
    parse value.canonical = .ok value.sorted := by
  rw [canonical, parse_compactChars (Passes.sorted exact), sorted_sorted]

theorem ofText_canonical (exact : value.IsExact Document.depthLimit) :
    Document.ofText value.canonical = (value.sorted.document, true) :=
  ofText_compactChars (IsExact.legible (Passes.sorted exact)).1

mutual

theorem isOrdered_of_toJson (room : Nat) : (tree : Document) → {value : Json} →
    tree.toJson room = .ok value → value.IsOrdered
  | .null, _, made => by
    cases made
    exact everyObject_null
  | .bool value, _, made => by
    cases made
    exact everyObject_bool value
  | .number none, _, made => by cases made
  | .number (some value), _, made => by
    cases made
    exact everyObject_number value
  | .text none, _, made => by cases made
  | .text (some value), _, made => by
    cases made
    exact everyObject_text value
  | .array elements fault, _, made => by
    rw [Document.toJson] at made
    split at made
    · cases made
    · obtain ⟨values, elementsOk, made⟩ := Outcome.bind_eq_ok.1 made
      obtain ⟨_, -, made⟩ := Outcome.bind_eq_ok.1 made
      cases made
      exact everyObject_array.2 (isOrdered_of_toElements (room - 1) elements elementsOk)
  | .object members fault, _, made => by
    rw [Document.toJson] at made
    split at made
    · cases made
    · obtain ⟨values, membersOk, made⟩ := Outcome.bind_eq_ok.1 made
      obtain ⟨_, -, made⟩ := Outcome.bind_eq_ok.1 made
      cases made
      exact isOrdered_ofMembers (isOrdered_of_toMembers (room - 1) members membersOk)
  | .broken fault, _, made => by cases made

theorem isOrdered_of_toElements (room : Nat) : (trees : List Document) → {elements : List Json} →
    Document.toElements room trees = .ok elements → ∀ element ∈ elements, element.IsOrdered
  | [], _, made => by
    cases made
    nofun
  | tree :: rest, _, made => by
    rw [Document.toElements] at made
    obtain ⟨first, firstOk, made⟩ := Outcome.bind_eq_ok.1 made
    obtain ⟨others, othersOk, made⟩ := Outcome.bind_eq_ok.1 made
    cases made
    exact List.forall_mem_cons.2 ⟨isOrdered_of_toJson room tree firstOk,
      isOrdered_of_toElements room rest othersOk⟩

theorem isOrdered_of_toMembers (room : Nat) : (trees : List (Option String × Document)) →
    {members : List (String × Json)} → Document.toMembers room trees = .ok members →
      ∀ member ∈ members, member.2.IsOrdered
  | [], _, made => by
    cases made
    nofun
  | (none, _) :: _, _, made => by cases made
  | (some key, tree) :: rest, _, made => by
    rw [Document.toMembers] at made
    obtain ⟨first, firstOk, made⟩ := Outcome.bind_eq_ok.1 made
    obtain ⟨others, othersOk, made⟩ := Outcome.bind_eq_ok.1 made
    cases made
    exact List.forall_mem_cons.2 ⟨isOrdered_of_toJson room tree firstOk,
      isOrdered_of_toMembers room rest othersOk⟩

end

theorem isOrdered_of_parse {source : String} (read : parse source = .ok value) :
    value.IsOrdered := by
  rw [parse] at read
  obtain ⟨found, made, read⟩ := Outcome.bind_eq_ok.1 read
  split at read
  · cases read
    exact isOrdered_of_toJson _ _ made
  · cases read

/-! ## Both forms -/

/-- Whether both written forms of a value are read as another one, which differs from it at most in
that its members are in order. -/
structure IsWritten (value printed : Json) : Prop where
  /-- Members are printed in the order of their keys. -/
  ordered : printed.IsOrdered
  /-- Nothing is lost but the order of members. -/
  alike : Alike value printed
  eq_of_ordered : value.IsOrdered → printed = value
  canonicalTree : Document.ofText value.canonical = (printed.document, true)
  canonicalValue : parse value.canonical = .ok printed
  prettyTree : Document.ofText value.pretty = (printed.document, true)
  prettyValue : parse value.pretty = .ok printed
  /-- It does not matter in which order the members of a text stand. -/
  unordered : parse (String.ofList (compactChars value)) = .ok printed

theorem isWritten_sorted (exact : value.IsExact Document.depthLimit)
    (distinct : value.HasDistinctKeys) : IsWritten value value.sorted where
  ordered := isOrdered_sorted value
  alike := alike_sorted value distinct
  eq_of_ordered ordered := ordered.sorted_eq
  canonicalTree := ofText_canonical exact
  canonicalValue := parse_canonical exact
  prettyTree := ofText_pretty (IsExact.legible exact).1
  prettyValue := exact.parse_pretty
  unordered := parse_compactChars exact

theorem canonical_sorted (value : Json) : value.sorted.canonical = value.canonical := by
  rw [canonical, canonical, sorted_sorted]

theorem Alike.canonical_eq (alike : Alike value other) (distinct : value.HasDistinctKeys) :
    value.canonical = other.canonical := by
  rw [canonical, canonical, (alike.sorted_eq distinct).2]

theorem alike_of_canonical_eq (exact : value.IsExact Document.depthLimit)
    (otherExact : other.IsExact Document.depthLimit) (distinct : value.HasDistinctKeys)
    (otherDistinct : other.HasDistinctKeys) (same : value.canonical = other.canonical) :
    Alike value other := by
  have read := parse_canonical exact
  rw [same, parse_canonical otherExact] at read
  exact (alike_iff_sorted_eq distinct otherDistinct).2 (Except.ok.inj read).symm

/-- Both written forms of a value of integers, nested no deeper than can be read, are read as the
value, and list the members of every object in the order of their keys. Texts of values that are
alike have one canonical form and therefore one hash, and texts of other values have different
canonical forms. -/
theorem canonical_identifies :
    (∀ value : Json, value.IsExact Document.depthLimit → value.HasDistinctKeys →
      ∃ printed, IsWritten value printed) ∧
    ∀ (source otherSource : String) (value other : Json), parse source = .ok value →
      parse otherSource = .ok other →
        (Alike value other → value.canonical = other.canonical ∧
          Sha256.hexOfText value.canonical = Sha256.hexOfText other.canonical) ∧
        (value.IsExact Document.depthLimit → other.IsExact Document.depthLimit →
          ¬ Alike value other → value.canonical ≠ other.canonical) := by
  refine ⟨fun value exact distinct => ⟨_, isWritten_sorted exact distinct⟩, ?_⟩
  intro source otherSource value other read otherRead
  have distinct := (isOrdered_of_parse read).hasDistinctKeys
  have otherDistinct := (isOrdered_of_parse otherRead).hasDistinctKeys
  constructor
  · intro alike
    have same := alike.canonical_eq distinct
    exact ⟨same, congrArg Sha256.hexOfText same⟩
  · exact fun exact otherExact unlike same =>
      unlike (alike_of_canonical_eq exact otherExact distinct otherDistinct same)

/-- An object whose members are in another order is written like the object in order, and unlike the
object with another element. -/
theorem canonical_identifies_swapped :
    let swapped (count : Nat) : Json :=
      object [("b", array [nat count, object [("z", null), ("a", text "\n")]]), ("B", text "é")]
    (swapped 1).IsExact Document.depthLimit ∧ (swapped 1).HasDistinctKeys ∧
      parse (swapped 1).pretty = parse (swapped 1).canonical ∧
      (swapped 1).canonical =
        "\x7b\"B\":\"é\",\"b\":[1,\x7b\"a\":\"\\n\",\"z\":null\x7d]\x7d" ∧
      (swapped 1).canonical ≠ (swapped 2).canonical := by
  intro swapped
  have exact : ∀ count ≤ 2, (swapped count).IsExact Document.depthLimit := by
    intro count small
    simp [swapped, IsExact, Passes, PassMembers, PassElements, nat, Number.IsExact,
      Document.depthLimit, Token.significandLimit, UInt64.size]
    omega
  have distinct : ∀ count, (swapped count).HasDistinctKeys := fun count => by
    simp [swapped, HasDistinctKeys, everyObject_object, everyObject_array, nat]
  have spelled : ∀ count, (swapped count).sorted = object [("B", text "é"),
      ("b", array [nat count, object [("a", text "\n"), ("z", null)]])] := fun count => by cbv
  have unlike : ¬ Alike (swapped 1).sorted (swapped 2).sorted := fun alike => by
    have same := (alike.sorted_eq (isOrdered_sorted _).hasDistinctKeys).2
    rw [sorted_sorted, sorted_sorted, spelled, spelled] at same
    simp [nat] at same
  obtain ⟨writes, tells⟩ := canonical_identifies
  obtain ⟨printed, written⟩ := writes (swapped 1) (exact 1 (by decide)) (distinct 1)
  have differ := (tells _ _ _ _ (parse_canonical (exact 1 (by decide)))
    (parse_canonical (exact 2 (by decide)))).2 (Passes.sorted (exact 1 (by decide)))
      (Passes.sorted (exact 2 (by decide))) unlike
  rw [canonical_sorted, canonical_sorted] at differ
  exact ⟨exact 1 (by decide), distinct 1, written.prettyValue.trans written.canonicalValue.symm,
    by rfl, differ⟩

end Json

end Blockwright
