import Blockwright.CommandLine.Words

/-!
# Invocations

The commands with their options, and how a list of arguments names one of them.
-/

namespace Blockwright

namespace CommandLine

/-- A command. -/
inductive Command where
  | templates
  | map (spec : String)
  /-- Lists the files that a block of the base game is made of. -/
  | resolve (block : String)
  | compile (spec : String) (out archive : Option String) (withFiles : Bool)
  | gate (archive : String) (spec payload : Option String)
deriving DecidableEq, Repr

/-- A command together with the options that all commands share. -/
structure Invocation where
  command : Command
  settings : Option String
  /-- Where the assets of the base game are. -/
  source : Option String
deriving DecidableEq, Repr

/-- The paths that an invocation names, apart from the source of assets. -/
def Invocation.paths (invocation : Invocation) : List String :=
  let own :=
    match invocation.command with
    | .templates => []
    | .map spec => [spec]
    | .resolve _ => []
    | .compile spec out archive _ => spec :: (out.toList ++ archive.toList)
    | .gate archive spec _ => archive :: spec.toList
  invocation.settings.toList ++ own

/-- How the commands are used. -/
def usage : String := Text.join "\n" [
  "Usage: blockwright [--config FILE] [--vanilla PATH] COMMAND",
  "",
  "Commands:",
  "  templates                     List block shapes",
  "  map      -s SPEC              List the files of a specification",
  "  resolve  -t BLOCK             List the assets that a block is made of",
  "  compile  -s SPEC [-o DIR] [-a ARCHIVE] [--files]",
  "                                Build a mod",
  "  gate     -a ARCHIVE (-s SPEC | -p PAYLOAD)",
  "                                Check a packed mod",
  ""]

/-- Options that all commands share. -/
def shared : List OptionRule := [⟨"config", some 'c', .path⟩, ⟨"vanilla", none, .path⟩]

/-- Names of the commands, with their own options. -/
def commands : List (String × List OptionRule) := [
  ("templates", []),
  ("map", [⟨"spec", some 's', .path⟩]),
  ("resolve", [⟨"template", some 't', .text⟩]),
  ("compile", [⟨"spec", some 's', .path⟩, ⟨"out", some 'o', .path⟩,
    ⟨"archive", some 'a', .path⟩, ⟨"files", none, .flag⟩]),
  ("gate", [⟨"archive", some 'a', .path⟩, ⟨"spec", some 's', .path⟩,
    ⟨"payload", some 'p', .text⟩])]

/-- The command with a name and the given values, if it has all that it needs. -/
def commandOf? (name : String) (values : Values) : Option Command :=
  match name with
  | "templates" => some .templates
  | "map" => (values.lookup "spec").map .map
  | "resolve" => (values.lookup "template").map .resolve
  | "compile" => (values.lookup "spec").map fun spec =>
    .compile spec (values.lookup "out") (values.lookup "archive") (values.lookup "files").isSome
  | "gate" => (values.lookup "archive").map fun archive =>
    .gate archive (values.lookup "spec") (values.lookup "payload")
  | _ => none

/-- What a request for help on commands amounts to. -/
def helpOn : List String → Refusal
  | [] => .help
  | [name] => if name = "help" || (commands.lookup name).isSome then .help else .wrong
  | _ => .wrong

/-- The invocation that a list of arguments states. What stands behind the name of the command
counts before what stands in front of it. -/
def parse (arguments : List String) : Except Refusal Invocation := do
  match ← readOptions shared [] arguments with
  | (_, []) => throw .wrong
  | (outer, name :: rest) =>
    if name = "help" then throw (helpOn rest)
    match commands.lookup name with
    | none => throw .wrong
    | some own =>
      match ← readOptions (own ++ shared) [] rest with
      | (_, _ :: _) => throw .wrong
      | (inner, []) =>
        match commandOf? name inner with
        | none => throw .wrong
        | some command =>
          let value (name : String) := (inner.lookup name).or (outer.lookup name)
          return { command, settings := value "config", source := value "vanilla" }

end CommandLine

end Blockwright
