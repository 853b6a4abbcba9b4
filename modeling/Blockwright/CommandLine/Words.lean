import Blockwright.Text.Words

/-!
# Words of a command line

Options are read word by word. A long option is written with two hyphens and may bring its value
behind an equals sign; a short one is written with one hyphen and may bring its value at once. The
value of an option that brings none is the next word. Two hyphens alone end the options.
-/

namespace Blockwright

namespace CommandLine

/-- Why a command line is not carried out. -/
inductive Refusal where
  | help
  | wrong
deriving DecidableEq, Repr

/-- What an option takes. -/
inductive OptionKind where
  | flag
  /-- A path, which is not empty. -/
  | path
  | text
deriving DecidableEq, Repr

/-- An option that a command knows. -/
structure OptionRule where
  name : String
  /-- Letter of the short form, if there is one. -/
  letter : Option Char
  kind : OptionKind
deriving DecidableEq, Repr

/-- The values of options by their long names. -/
abbrev Values := List (String × String)

/-- What a word is. -/
inductive Word where
  | plain
  | ending
  /-- An option, and the value that it brings. -/
  | option (rule : OptionRule) (value : Option String)
deriving DecidableEq, Repr

/-- Reads a long option from what stands behind its hyphens. -/
def readLong (known : List OptionRule) (text : String) : Except Refusal Word :=
  let (name, value) :=
    match Text.cut? '=' text with
    | some (name, value) => (name, some value)
    | none => (text, none)
  if name = "help" then .error (if value.isNone then .help else .wrong)
  else
    match known.find? fun rule => rule.name == name with
    | none => .error .wrong
    | some rule =>
      if rule.kind = .flag && value.isSome then .error .wrong else .ok (.option rule value)

/-- The value that a short option brings. -/
def attached : List Char → Option String
  | [] => none
  | '=' :: value => some (String.ofList value)
  | value => some (String.ofList value)

/-- Reads a short option from what stands behind its hyphen. -/
def readShort (known : List OptionRule) (letter : Char) (rest : List Char) :
    Except Refusal Word :=
  if letter = 'h' then .error .help
  else
    match known.find? fun rule => rule.letter = some letter with
    | none => .error .wrong
    | some rule => .ok (.option rule (attached rest))

def readWord (known : List OptionRule) (word : String) : Except Refusal Word :=
  match word.toList with
  | ['-', '-'] => .ok .ending
  | '-' :: '-' :: rest => readLong known (String.ofList rest)
  | '-' :: letter :: rest => readShort known letter rest
  | _ => .ok .plain

/-- Whether a word can be the value of the option before it. -/
def isValue (word : String) : Bool := word = "-" || word.toList.head? != some '-'

/-- Adds the value of an option, which may be given once. -/
def addValue (rule : OptionRule) (value : String) (values : Values) : Except Refusal Values :=
  if (values.lookup rule.name).isSome then .error .wrong
  else if rule.kind = .path && value = "" then .error .wrong
  else .ok ((rule.name, value) :: values)

/-- Reads options up to the first word that is none, which is left with all behind it. Nothing may
stand behind the end of the options. -/
def readOptions (known : List OptionRule) (values : Values) :
    List String → Except Refusal (Values × List String)
  | [] => .ok (values, [])
  | word :: rest =>
    match readWord known word with
    | .error refusal => .error refusal
    | .ok .plain => .ok (values, word :: rest)
    | .ok .ending => if rest.isEmpty then .ok (values, []) else .error .wrong
    | .ok (.option rule (some value)) =>
      match addValue rule value values with
      | .error refusal => .error refusal
      | .ok values => readOptions known values rest
    | .ok (.option rule none) =>
      if rule.kind = .flag then
        match addValue rule "" values with
        | .error refusal => .error refusal
        | .ok values => readOptions known values rest
      else
        match rest with
        | [] => .error .wrong
        | value :: rest =>
          if !isValue value then .error .wrong
          else
            match addValue rule value values with
            | .error refusal => .error refusal
            | .ok values => readOptions known values rest

end CommandLine

end Blockwright
