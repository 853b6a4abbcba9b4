import Mathlib
import Blockwright.Appearance.Material
import Blockwright.Proofs.Text.Runs

/-!
# First match and all matches

All classes of a subject are found by trying one rule after another: every class is listed once,
where its first rule stands, and the first of them is the class of the first match. The tests of
words tell subjects apart only by their runs in lower case.
-/

namespace Blockwright

namespace RuleTable

variable {α : Type} {table : RuleTable α} {subject : String} {rule : Rule α} {variant : α}
  {place : ℕ}

/-! ## Trying one more rule -/

theorem classify_concat (table : RuleTable α) (subject : String) (rule : Rule α) :
    classify (table ++ [rule]) subject = (table.classify subject).or
      (if rule.pattern.accepts subject then some rule.variant else none) := by
  rw [classify, List.find?_append, Option.map_or, ← classify, List.find?_singleton]
  split <;> rfl

variable [BEq α] {found : List α}

theorem loop_concat (entries seen : List α) (entry : α) :
    List.eraseDupsBy.loop (· == ·) (entries ++ [entry]) seen =
      if (List.eraseDupsBy.loop (· == ·) entries seen).contains entry then
        List.eraseDupsBy.loop (· == ·) entries seen
      else List.eraseDupsBy.loop (· == ·) entries seen ++ [entry] := by
  induction entries generalizing seen with
  | nil =>
    rw [List.nil_append, List.eraseDupsBy.loop, List.eraseDupsBy.loop, List.contains_reverse,
      ← List.any_beq]
    cases seen.any (entry == ·) with
    | false => exact List.reverse_cons
    | true => rfl
  | cons first rest ih =>
    rw [List.cons_append, List.eraseDupsBy.loop, List.eraseDupsBy.loop]
    cases seen.any (first == ·) with
    | true => exact ih seen
    | false => exact ih (first :: seen)

theorem eraseDups_concat (entries : List α) (entry : α) :
    (entries ++ [entry]).eraseDups =
      if entries.eraseDups.contains entry then entries.eraseDups
      else entries.eraseDups ++ [entry] :=
  loop_concat entries [] entry

/-- The classes found so far with that of a further rule, if it accepts the subject and its class is
new. -/
def collect (subject : String) (found : List α) (rule : Rule α) : List α :=
  if rule.pattern.accepts subject && !found.contains rule.variant then found ++ [rule.variant]
  else found

theorem collect_of_refused (refused : rule.pattern.accepts subject = false) (found : List α) :
    collect subject found rule = found := by
  rw [collect, refused]
  rfl

theorem collect_of_known (known : found.contains rule.variant = true) (subject : String) :
    collect subject found rule = found := by
  rw [collect, known, Bool.not_true, Bool.and_false]
  rfl

theorem collect_of_new (accepted : rule.pattern.accepts subject = true)
    (new : found.contains rule.variant = false) :
    collect subject found rule = found ++ [rule.variant] := by
  rw [collect, accepted, new]
  rfl

theorem classifyAll_concat (table : RuleTable α) (subject : String) (rule : Rule α) :
    classifyAll (table ++ [rule]) subject = collect subject (table.classifyAll subject) rule := by
  rw [classifyAll, List.filter_append, List.map_append]
  cases accepted : rule.pattern.accepts subject with
  | false =>
    have last : [rule].filter (fun rule => rule.pattern.accepts subject) = [] := by simp [accepted]
    rw [last, List.map_nil, List.append_nil, collect_of_refused accepted, classifyAll]
  | true =>
    have last : [rule].filter (fun rule => rule.pattern.accepts subject) = [rule] := by
      simp [accepted]
    rw [last, List.map_singleton, eraseDups_concat, ← classifyAll]
    cases known : (table.classifyAll subject).contains rule.variant with
    | false => exact (collect_of_new accepted known).symm
    | true => exact (collect_of_known known subject).symm

/-- A rule gives the first class only if there was none before. -/
theorem head?_collect (subject : String) (found : List α) (rule : Rule α) :
    (collect subject found rule).head? = found.head?.or
      (if rule.pattern.accepts subject then some rule.variant else none) := by
  cases accepted : rule.pattern.accepts subject with
  | false => rw [collect_of_refused accepted, if_neg Bool.false_ne_true, Option.or_none]
  | true =>
    rw [if_pos rfl]
    cases known : found.contains rule.variant with
    | false =>
      rw [collect_of_new accepted known, List.head?_append]
      rfl
    | true =>
      rw [collect_of_known known]
      cases found with
      | nil => cases known
      | cons first others => rfl

theorem head?_classifyAll (table : RuleTable α) (subject : String) :
    (table.classifyAll subject).head? = table.classify subject := by
  induction table using List.reverseRecOn with
  | nil => rfl
  | append_singleton table rule ih =>
    rw [classifyAll_concat, head?_collect, ih, classify_concat]

/-! ## The order of all matches -/

/-- Whether some rule that accepts a subject gives it a class, or one equal to that. -/
def Gives (table : RuleTable α) (subject : String) (variant : α) : Prop :=
  ∃ rule ∈ table, rule.pattern.accepts subject = true ∧ (variant == rule.variant) = true

theorem gives_concat_iff : Gives (table ++ [rule]) subject variant ↔
    table.Gives subject variant ∨
      (rule.pattern.accepts subject = true ∧ (variant == rule.variant) = true) := by
  simp only [Gives, List.mem_append, List.mem_singleton, or_and_right, exists_or, exists_eq_left]

theorem Gives.of_beq [PartialEquivBEq α] {other : α} (gives : table.Gives subject other)
    (same : (variant == other) = true) : table.Gives subject variant := by
  obtain ⟨rule, isRule, accepted, equal⟩ := gives
  exact ⟨rule, isRule, accepted, BEq.trans same equal⟩

/-- Whether the rule at a place is the first of a table that gives a class to a subject. -/
def GivesFirst (table : RuleTable α) (subject : String) (place : ℕ) (variant : α) : Prop :=
  ∃ rule, table[place]? = some rule ∧ rule.pattern.accepts subject = true ∧
    rule.variant = variant ∧ ¬Gives (table.take place) subject variant

theorem GivesFirst.lt_length (gives : table.GivesFirst subject place variant) :
    place < table.length := by
  obtain ⟨rule, isRule, -⟩ := gives
  exact (List.getElem?_eq_some_iff.1 isRule).1

/-- The last rule is the first of its class if it accepts the subject and no other rule gives that
class. -/
theorem givesFirst_concat_iff : GivesFirst (table ++ [rule]) subject place variant ↔
    table.GivesFirst subject place variant ∨
      (place = table.length ∧ rule.pattern.accepts subject = true ∧ rule.variant = variant ∧
        ¬table.Gives subject variant) := by
  rcases lt_trichotomy place table.length with inside | rfl | behind
  · rw [GivesFirst, List.getElem?_append_left inside, List.take_append_of_le_length inside.le,
      ← GivesFirst]
    exact (or_iff_left fun last => inside.ne last.1).symm
  · have outside : ¬table.GivesFirst subject table.length variant := fun gives =>
      gives.lt_length.false
    rw [or_iff_right outside, GivesFirst, List.getElem?_concat_length, List.take_left]
    simp
  · have outside : ¬GivesFirst (table ++ [rule]) subject place variant := fun gives => by
      have inside := gives.lt_length
      rw [List.length_append, List.length_singleton] at inside
      omega
    have before : ¬table.GivesFirst subject place variant := fun gives =>
      behind.asymm gives.lt_length
    exact iff_of_false outside (not_or.2 ⟨before, fun last => behind.ne' last.1⟩)

/-- Whether classes are all those that a table gives to a subject, where equal classes count as
one. -/
structure Lists (table : RuleTable α) (subject : String) (found : List α) : Prop where
  different : found.Pairwise fun first second => (first == second) = false
  /-- The listed classes are those of the rules that accept the subject. -/
  contains : ∀ variant, found.contains variant = true ↔ table.Gives subject variant
  /-- The classes stand for the rules that give them first, in the order of these rules. -/
  inOrder : ∃ places : List ℕ, places.Pairwise (· < ·) ∧
    (∀ place, place ∈ places ↔ ∃ variant, table.GivesFirst subject place variant) ∧
    List.Forall₂ (table.GivesFirst subject) places found

theorem lists_nil (subject : String) : Lists ([] : RuleTable α) subject [] where
  different := .nil
  contains := by simp [Gives]
  inOrder := by
    have none : ∀ place (variant : α), ¬GivesFirst [] subject place variant :=
      fun _ _ gives => absurd gives.lt_length (Nat.not_lt_zero _)
    exact ⟨[], .nil, by simp [none], .nil⟩

namespace Lists

variable (lists : table.Lists subject found)
include lists

theorem concat_of_idle
    (gives : ∀ variant, Gives (table ++ [rule]) subject variant ↔ table.Gives subject variant)
    (idle : rule.pattern.accepts subject = true → table.Gives subject rule.variant) :
    Lists (table ++ [rule]) subject found where
  different := lists.different
  contains variant := by rw [lists.contains, gives]
  inOrder := by
    have same : GivesFirst (table ++ [rule]) subject = table.GivesFirst subject := by
      funext place variant
      rw [eq_iff_iff, givesFirst_concat_iff, or_iff_left]
      rintro ⟨-, accepted, rfl, new⟩
      exact new (idle accepted)
    rw [same]
    exact lists.inOrder

theorem concat_of_refused (refused : rule.pattern.accepts subject = false) :
    Lists (table ++ [rule]) subject found := by
  have never : ¬rule.pattern.accepts subject = true := Bool.not_eq_true _ ▸ refused
  refine lists.concat_of_idle (fun variant => ?_) fun accepted => absurd accepted never
  rw [gives_concat_iff, or_iff_left fun last => never last.1]

variable [PartialEquivBEq α]

theorem concat_of_known (known : found.contains rule.variant = true) :
    Lists (table ++ [rule]) subject found := by
  have before : table.Gives subject rule.variant := (lists.contains _).1 known
  refine lists.concat_of_idle (fun variant => ?_) fun _ => before
  rw [gives_concat_iff]
  exact or_iff_left_of_imp fun last => before.of_beq last.2

theorem concat_of_new (accepted : rule.pattern.accepts subject = true)
    (new : found.contains rule.variant = false) :
    Lists (table ++ [rule]) subject (found ++ [rule.variant]) where
  different := by
    rw [List.pairwise_append]
    refine ⟨lists.different, List.pairwise_singleton _ _, fun first isFirst last isLast => ?_⟩
    rw [List.mem_singleton.1 isLast]
    refine BEq.symm_false ?_
    by_contra same
    have known : found.contains rule.variant = true :=
      List.contains_iff_exists_mem_beq.2 ⟨first, isFirst, by simpa using same⟩
    rw [new] at known
    cases known
  contains variant := by
    rw [List.contains_append, Bool.or_eq_true, lists.contains, gives_concat_iff]
    simp [accepted]
  inOrder := by
    obtain ⟨places, sorted, all, firsts⟩ := lists.inOrder
    have fresh : ¬table.Gives subject rule.variant := by
      rw [← lists.contains, new]
      exact Bool.false_ne_true
    refine ⟨places ++ [table.length], ?_, fun place => ?_, ?_⟩
    · rw [List.pairwise_append]
      refine ⟨sorted, List.pairwise_singleton _ _, fun place isPlace last isLast => ?_⟩
      obtain ⟨variant, gives⟩ := (all place).1 isPlace
      rw [List.mem_singleton.1 isLast]
      exact gives.lt_length
    · rw [List.mem_append, List.mem_singleton, all]
      simp only [givesFirst_concat_iff, exists_or]
      refine or_congr_right ⟨fun last => ⟨_, last, accepted, rfl, fresh⟩, fun last => ?_⟩
      obtain ⟨variant, isLast, -⟩ := last
      exact isLast
    · refine List.rel_append (firsts.imp fun _ _ gives => givesFirst_concat_iff.2 (.inl gives)) ?_
      exact .cons (givesFirst_concat_iff.2 (.inr ⟨rfl, accepted, rfl, fresh⟩)) .nil

theorem concat (rule : Rule α) : Lists (table ++ [rule]) subject (collect subject found rule) := by
  cases accepted : rule.pattern.accepts subject with
  | false =>
    rw [collect_of_refused accepted]
    exact lists.concat_of_refused accepted
  | true =>
    cases known : found.contains rule.variant with
    | false =>
      rw [collect_of_new accepted known]
      exact lists.concat_of_new accepted known
    | true =>
      rw [collect_of_known known]
      exact lists.concat_of_known known

end Lists

theorem lists_classifyAll [PartialEquivBEq α] (table : RuleTable α) (subject : String) :
    table.Lists subject (table.classifyAll subject) := by
  -- The list grows behind, so the induction takes the last rule off.
  induction table using List.reverseRecOn with
  | nil => exact lists_nil subject
  | append_singleton table rule ih =>
    rw [classifyAll_concat]
    exact Lists.concat ih rule

namespace Lists

variable [LawfulBEq α] (lists : table.Lists subject found)
include lists

theorem nodup : found.Nodup := lists.different.imp fun other => beq_eq_false_iff_ne.1 other

theorem mem_iff : variant ∈ found ↔
    ∃ rule ∈ table, rule.pattern.accepts subject = true ∧ rule.variant = variant := by
  rw [← List.contains_iff_mem, lists.contains]
  simp only [Gives, beq_iff_eq, @eq_comm _ variant]

end Lists

end RuleTable

/-! ## Tests of words -/

namespace Pattern

variable {subject other : String}

/-- Whether a test asks only for words, or for nothing. -/
def isOfWords : Pattern → Bool
  | word _ => true
  | wordStart _ => true
  | always => true
  | _ => false

theorem accepts_word_iff {text : String} : accepts subject (word text) = true ↔
    text.toList ∈ Text.lowered (Text.runs subject.toList) := by
  rw [accepts, Text.words_eq, List.any_eq_true]
  simp

theorem accepts_wordStart_iff {text : String} : accepts subject (wordStart text) = true ↔
    ∃ word ∈ Text.lowered (Text.runs subject.toList), text.toList <+: word := by
  rw [accepts, Text.words_eq, List.any_eq_true]
  simp only [List.isPrefixOf_iff_prefix]

theorem accepts_eq_of_words_eq {pattern : Pattern} (ofWords : pattern.isOfWords = true)
    (same : Text.words other = Text.words subject) :
    pattern.accepts other = pattern.accepts subject := by
  cases pattern with
  | word text => rw [accepts, accepts, same]
  | wordStart text => rw [accepts, accepts, same]
  | always => rfl
  | _ => cases ofWords

end Pattern

namespace RuleTable

variable {α : Type} {table : RuleTable α} {subject other : String}

theorem classify_eq_of_words_eq (ofWords : table.all (fun rule => rule.pattern.isOfWords) = true)
    (same : Text.words other = Text.words subject) :
    table.classify other = table.classify subject := by
  rw [List.all_eq_true] at ofWords
  rw [classify, classify, List.find?_congr fun rule isRule =>
    Pattern.accepts_eq_of_words_eq (ofWords rule isRule) same]

theorem classifyAll_eq_of_words_eq [BEq α]
    (ofWords : table.all (fun rule => rule.pattern.isOfWords) = true)
    (same : Text.words other = Text.words subject) :
    table.classifyAll other = table.classifyAll subject := by
  rw [List.all_eq_true] at ofWords
  rw [classifyAll, classifyAll, List.filter_congr fun rule isRule =>
    Pattern.accepts_eq_of_words_eq (ofWords rule isRule) same]

/-- All classes that a table gives to a subject are listed once each, where their first rules
stand, and begin with the class of the first match. The tests of words see the maximal runs of a
subject in lower case and nothing else, so that they tell it from none of its respellings. -/
theorem classifyAll_agrees [BEq α] [PartialEquivBEq α] (table : RuleTable α) (subject : String) :
    (table.Lists subject (table.classifyAll subject) ∧
      (LawfulBEq α → (table.classifyAll subject).Nodup ∧
        ∀ variant, variant ∈ table.classifyAll subject ↔
          ∃ rule ∈ table, rule.pattern.accepts subject = true ∧ rule.variant = variant) ∧
      (table.classifyAll subject).head? = table.classify subject ∧
      (table.classifyAll subject = [] ↔ table.classify subject = none)) ∧
    ∃ runs, (∀ found, Text.HasRuns subject.toList found ↔ found = runs) ∧
      (∀ text : String,
        (Pattern.accepts subject (.word text) = true ↔ text.toList ∈ Text.lowered runs) ∧
        (Pattern.accepts subject (.wordStart text) = true ↔
          ∃ word ∈ Text.lowered runs, text.toList <+: word)) ∧
      ∀ other : String,
        (Text.Respelled subject.toList other.toList ↔
          ∃ others, Text.HasRuns other.toList others ∧ Text.lowered others = Text.lowered runs) ∧
        (Text.Respelled subject.toList other.toList →
          (∀ pattern : Pattern, pattern.isOfWords = true →
            pattern.accepts other = pattern.accepts subject) ∧
          (table.all (fun rule => rule.pattern.isOfWords) = true →
            table.classify other = table.classify subject ∧
            table.classifyAll other = table.classifyAll subject)) := by
  have lists := lists_classifyAll table subject
  have first := head?_classifyAll table subject
  refine ⟨⟨lists, fun _ => ⟨lists.nodup, fun _ => lists.mem_iff⟩, first, ?_⟩,
    Text.runs subject.toList, fun _ => Text.hasRuns_iff,
    fun _ => ⟨Pattern.accepts_word_iff, Pattern.accepts_wordStart_iff⟩, fun other => ⟨?_, ?_⟩⟩
  · rw [← first, List.head?_eq_none_iff]
  · simp only [Text.hasRuns_iff, exists_eq_left]
    rw [Text.respelled_iff, eq_comm]
  · intro respelled
    have same : Text.words other = Text.words subject := by
      rw [Text.words_eq, Text.words_eq, respelled.lowered_runs]
    exact ⟨fun _ ofWords => Pattern.accepts_eq_of_words_eq ofWords same, fun ofWords =>
      ⟨classify_eq_of_words_eq ofWords same, classifyAll_eq_of_words_eq ofWords same⟩⟩

/-- Two words give two materials in the order of the table, in any spelling. -/
theorem classifyAll_agrees_ironwood :
    (Material.rules.classifyAll "iron_wood").head? = some .wood ∧
      .metal ∈ Material.rules.classifyAll "iron_wood" ∧
      (Material.rules.classifyAll "iron_wood").Nodup ∧
      Text.Respelled "iron_wood".toList " Iron - Wood".toList ∧
      Material.rules.classifyAll " Iron - Wood" = [.wood, .metal] := by
  obtain ⟨⟨-, lawful, first, -⟩, runs, hasRuns, -, others⟩ :=
    classifyAll_agrees Material.rules "iron_wood"
  obtain ⟨nodup, members⟩ := lawful inferInstance
  obtain ⟨spelling, kept⟩ := others " Iron - Wood"
  have isRuns : Text.runs "iron_wood".toList = runs := (hasRuns _).1 (Text.hasRuns_iff.2 rfl)
  have respelled : Text.Respelled "iron_wood".toList " Iron - Wood".toList := by
    refine spelling.2 ⟨_, Text.hasRuns_iff.2 rfl, ?_⟩
    rw [← isRuns]
    decide +kernel
  obtain ⟨-, classes⟩ := (kept respelled).2 (by decide)
  refine ⟨first.trans (by decide +kernel), (members .metal).2 ?_, nodup, respelled,
    classes.trans (by decide +kernel)⟩
  exact ⟨⟨.word "iron", .metal⟩, by simp [Material.rules], by decide +kernel, rfl⟩

end RuleTable

end Blockwright
