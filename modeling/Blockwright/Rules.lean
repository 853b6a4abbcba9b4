import Blockwright.Text.Words

/-!
# Rule tables

Ids and display names are classified by ordered tables of tests. The first rule whose test accepts
the subject decides; a subject may also be given every class it matches, in table order.
-/

namespace Blockwright

/-- A test of an id or a display name. The tests on words see them in ASCII lower case. -/
inductive Pattern where
  | exact (text : String)
  /-- The subject starts with the given text. -/
  | startsWith (text : String)
  /-- The subject ends with the given text. -/
  | endsWith (text : String)
  /-- The given text occurs in the subject. -/
  | contains (text : String)
  /-- Some word of the subject is the given text. -/
  | word (text : String)
  /-- Some word of the subject starts with the given text. -/
  | wordStart (text : String)
  | always
deriving DecidableEq, Repr

/-- Whether a pattern accepts a subject. -/
def Pattern.accepts (subject : String) : Pattern → Bool
  | .exact text => subject == text
  | .startsWith text => text.toList.isPrefixOf subject.toList
  | .endsWith text => text.toList.isSuffixOf subject.toList
  | .contains text => Text.occurs text.toList subject.toList
  | .word text => (Text.words subject).any (· == text.toList)
  | .wordStart text => (Text.words subject).any text.toList.isPrefixOf
  | .always => true

/-- A test together with the class of the subjects that it accepts. -/
structure Rule (α : Type) where
  pattern : Pattern
  variant : α
deriving Repr

/-- Rules in the order in which they are tried. -/
abbrev RuleTable (α : Type) := List (Rule α)

namespace RuleTable

/-- The class of the first rule that accepts a subject. -/
def classify {α : Type} (table : RuleTable α) (subject : String) : Option α :=
  (table.find? (fun rule => rule.pattern.accepts subject)).map Rule.variant

/-- The classes of all rules that accept a subject, each once, in order of first occurrence. -/
def classifyAll {α : Type} [BEq α] (table : RuleTable α) (subject : String) : List α :=
  ((table.filter (fun rule => rule.pattern.accepts subject)).map Rule.variant).eraseDups

end RuleTable

end Blockwright
