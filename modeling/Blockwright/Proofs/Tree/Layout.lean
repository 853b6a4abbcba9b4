import Blockwright.Proofs.Disk.Storing
import Blockwright.Proofs.Spec.Slug

/-!
# Layout of paths

The path of a file of a mod leads along words to a file name, and only the file name has an ending.
No such path leads out of the mod, and none leads through another.
-/

namespace Blockwright

namespace Path

/-- Whether a text is short and made of characters that may stand inside an id. -/
def isWord (text : String) : Bool :=
  text != "" && text.toList.all Slug.isInner && decide (text.utf8ByteSize ≤ 128)

/-- Whether a text consists of words with slashes between them. -/
def isRoute (text : String) : Bool := (Text.splitOnChar '/' text).all isWord

/-- Whether a path is a route with the ending of a texture or of a document. -/
def IsPlaced (path : String) : Prop :=
  ∃ route ending, path = route ++ ending ∧ isRoute route = true ∧
    (ending = ".png" ∨ ending = ".json")

variable {text path : String}

/-! ## Words -/

theorem isWord_iff : isWord text = true ↔
    text ≠ "" ∧ (∀ c ∈ text.toList, Slug.isInner c = true) ∧ text.utf8ByteSize ≤ 128 := by
  simp [isWord, and_assoc]

theorem isWord_of_isSlug (slug : Slug.IsSlug text) : isWord text = true := by
  have valid := Slug.isValid_iff.2 slug
  obtain ⟨first, rest, form, short, -⟩ := Slug.parts_of_isValid valid
  refine isWord_iff.2 ⟨?_, fun c => Slug.isInner_of_mem valid, short.trans (by decide)⟩
  rintro rfl
  cases form

/-- An id with a short ending is a word. -/
theorem isWord_append (slug : Slug.IsSlug text) {ending : String}
    (inner : ending.toList.all Slug.isInner = true) (short : ending.utf8ByteSize ≤ 64) :
    isWord (text ++ ending) = true := by
  have valid := Slug.isValid_iff.2 slug
  obtain ⟨notEmpty, innerText, -⟩ := isWord_iff.1 (isWord_of_isSlug slug)
  obtain ⟨first, rest, form, shortText, -⟩ := Slug.parts_of_isValid valid
  refine isWord_iff.2 ⟨?_, ?_, ?_⟩
  · simp [notEmpty]
  · rw [String.toList_append, List.forall_mem_append]
    exact ⟨innerText, List.all_eq_true.1 inner⟩
  · rw [String.utf8ByteSize_append]
    exact Nat.add_le_add shortText short

theorem isRoute_of_isWord (word : isWord text = true) : isRoute text = true := by
  have noSlash : '/' ∉ text.toList := fun isThere =>
    absurd ((isWord_iff.1 word).2.1 '/' isThere) (by decide)
  rw [isRoute, Text.splitOnChar_of_not_mem noSlash, List.all_cons, word]
  rfl

theorem isRoute_append (front rest : String) :
    isRoute (front ++ "/" ++ rest) = (isRoute front && isRoute rest) := by
  rw [isRoute, show "/" = String.singleton '/' from rfl, Text.splitOnChar_append, List.all_append]
  rfl

theorem isRoute_join {parts : List String} (isPart : parts ≠ [])
    (each : parts.all isRoute = true) : isRoute (Text.join "/" parts) = true := by
  induction parts with
  | nil => exact absurd rfl isPart
  | cons first rest ih =>
    rw [List.all_cons, Bool.and_eq_true] at each
    cases rest with
    | nil => exact each.1
    | cons second others =>
      rw [Text.join, isRoute_append, each.1, ih (List.cons_ne_nil _ _) each.2]
      · rfl
      · exact List.cons_ne_nil _ _

theorem isPlaced_of_parts (parts : List String) (ending : String)
    (spelled : path = Text.join "/" parts ++ ending)
    (isEnding : ending = ".png" ∨ ending = ".json") (isPart : parts ≠ [])
    (each : parts.all isRoute = true) : IsPlaced path :=
  ⟨_, ending, spelled, isRoute_join isPart each, isEnding⟩

/-! ## Paths -/

theorem isInner_of_mem_route (route : isRoute text = true) {c : Char}
    (isCharacter : c ∈ text.toList) :
    c = '/' ∨ Slug.isInner c = true := by
  refine (Text.eq_or_mem_splitOnChar isCharacter).imp_right ?_
  rintro ⟨piece, isPiece, isInside⟩
  exact (isWord_iff.1 (List.all_eq_true.1 route piece isPiece)).2.1 c isInside

theorem isName_of_isWord (word : isWord text = true) : Disk.IsName text := by
  obtain ⟨notEmpty, inner, short⟩ := isWord_iff.1 word
  refine ⟨notEmpty, ?_, ?_, short.trans (by decide)⟩
  · rintro rfl
    exact absurd (inner '.' (by decide)) (by decide)
  · rintro rfl
    exact absurd (inner '.' (by decide)) (by decide)

theorem isName_append (word : isWord text = true) {ending : String}
    (isEnding : ending = ".png" ∨ ending = ".json") : Disk.IsName (text ++ ending) := by
  obtain ⟨notEmpty, inner, short⟩ := isWord_iff.1 word
  obtain ⟨first, rest, form⟩ := List.exists_cons_of_ne_nil (mt String.toList_eq_nil_iff.1 notEmpty)
  have noDot : ∀ others, (text ++ ending).toList ≠ '.' :: others := by
    intro others same
    rw [String.toList_append, form] at same
    obtain rfl := List.head_eq_of_cons_eq same
    exact absurd (inner '.' (form ▸ List.mem_cons_self)) (by decide)
  refine ⟨?_, fun same => noDot [] (congrArg String.toList same),
    fun same => noDot ['.'] (congrArg String.toList same), ?_⟩
  · simp [notEmpty]
  · have shortEnding : ending.utf8ByteSize ≤ 5 := by rcases isEnding with rfl | rfl <;> decide
    rw [String.utf8ByteSize_append]
    exact (Nat.add_le_add short shortEnding).trans (by decide)

theorem IsPlaced.isPlain (placed : IsPlaced path) : IsPlain path := by
  obtain ⟨route, ending, rfl, isRoute, isEnding⟩ := placed
  have noSlash : '/' ∉ ending.toList := by
    rcases isEnding with rfl | rfl <;> decide
  obtain ⟨front, last, form, longer⟩ := Text.splitOnChar_ending noSlash route
  constructor
  · rw [Path.isRoute, form, List.all_append, Bool.and_eq_true, List.all_eq_true] at isRoute
    rw [longer, List.forall_mem_append, List.forall_mem_singleton]
    exact ⟨fun name isFolder => isName_of_isWord (isRoute.1 name isFolder),
      isName_append (by simpa using isRoute.2) isEnding⟩
  · rw [String.toList_append, List.mem_append]
    rintro (inRoute | inEnding)
    · rcases isInner_of_mem_route isRoute inRoute with isSlash | inner
      · cases isSlash
      · cases inner
    · rcases isEnding with rfl | rfl <;> exact absurd inEnding (by decide)

/-- No placed path leads through another. -/
theorem IsPlaced.ne_append {other : String} (placed : IsPlaced path) (otherPlaced : IsPlaced other)
    (rest : String) : other ≠ path ++ "/" ++ rest := by
  obtain ⟨route, ending, rfl, isRoute, isEnding⟩ := placed
  obtain ⟨otherRoute, otherEnding, rfl, isOtherRoute, isOtherEnding⟩ := otherPlaced
  have noDot : ∀ {route : String}, Path.isRoute route = true → '.' ∉ route.toList := by
    intro route isRoute isDot
    rcases isInner_of_mem_route isRoute isDot with isSlash | inner
    · cases isSlash
    · cases inner
  have noEnding : ∀ {ending : String}, ending = ".png" ∨ ending = ".json" →
      ∃ kind, ending.toList = '.' :: kind ∧ '.' ∉ kind ∧ '/' ∉ kind := by
    rintro ending (rfl | rfl)
    · exact ⟨['p', 'n', 'g'], by decide⟩
    · exact ⟨['j', 's', 'o', 'n'], by decide⟩
  obtain ⟨kind, form, -, -⟩ := noEnding isEnding
  obtain ⟨otherKind, otherForm, oneDot, noSlash⟩ := noEnding isOtherEnding
  intro same
  -- the only dot of the longer path would stand in front of a slash
  have characters := congrArg String.toList same
  simp only [String.toList_append, form, otherForm, List.append_assoc,
    List.cons_append] at characters
  obtain ⟨-, -, behind⟩ :=
    (List.append_cons_inj_of_notMem (noDot isOtherRoute) oneDot).1 characters
  rw [behind] at noSlash
  simp at noSlash

end Path

end Blockwright
