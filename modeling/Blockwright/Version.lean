import Blockwright.Text.Visible

/-!
# Versions

Versions of the game: three numbers, an optional pre-release identifier and optional build
metadata. A pre-release comes before the version it precedes.
-/

namespace Blockwright

/-- A version. -/
structure Version where
  major : Nat
  minor : Nat
  patch : Nat
  /-- Pre-release identifier, or nothing. -/
  preRelease : String := ""
  /-- Build metadata, or nothing. -/
  build : String := ""
deriving DecidableEq, Repr

namespace Version

/-- A part of a version. -/
inductive Part where
  | major
  | minor
  | patch
  | preRelease
  | build
deriving DecidableEq, Repr

/-- Name of a part in messages. -/
def Part.name : Part → String
  | .major => "major version number"
  | .minor => "minor version number"
  | .patch => "patch version number"
  | .preRelease => "pre-release identifier"
  | .build => "build metadata"

/-- Why a text is not a version. -/
inductive Fault where
  | empty
  /-- The text ends before a part is complete. -/
  | truncated (part : Part)
  | unexpected (part : Part) (found : Char)
  | unexpectedAfter (part : Part) (found : Char)
  | leadingZero (part : Part)
  /-- A number does not fit sixty-four bits. -/
  | overflow (part : Part)
  | emptySegment (part : Part)
deriving DecidableEq, Repr

def Fault.message : Fault → String
  | .empty => "empty string, expected a semver version"
  | .truncated part => "unexpected end of input while parsing " ++ part.name
  | .unexpected part found =>
    "unexpected character " ++ Text.quoteChar found ++ " while parsing " ++ part.name
  | .unexpectedAfter part found =>
    "unexpected character " ++ Text.quoteChar found ++ " after " ++ part.name
  | .leadingZero part => "invalid leading zero in " ++ part.name
  | .overflow part => "value of " ++ part.name ++ " exceeds u64::MAX"
  | .emptySegment part => "empty identifier segment in " ++ part.name

/-- Reads the digits of a number after the first `count`, whose value is given. -/
def readDigits (part : Part) (value count : Nat) : List Char → Except Fault (Nat × List Char)
  | [] => if count = 0 then .error (.truncated part) else .ok (value, [])
  | c :: rest =>
    if c.isDigit then
      let next := value * 10 + (c.toNat - 48)
      if value = 0 ∧ 0 < count then .error (.leadingZero part)
      else if UInt64.size ≤ next then .error (.overflow part)
      else readDigits part next (count + 1) rest
    else if count = 0 then .error (.unexpected part c)
    else .ok (value, c :: rest)

/-- Reads the dot behind a number. -/
def readDot (part : Part) : List Char → Except Fault (List Char)
  | '.' :: rest => .ok rest
  | c :: _ => .error (.unexpectedAfter part c)
  | [] => .error (.truncated part)

/-- Whether a character may stand in a segment of an identifier. -/
def isSegmentChar (c : Char) : Bool := c.isAlphanum || c == '-'

/-- Accepts a segment, given latest character first. A number in a pre-release identifier has no
leading zero. -/
def checkSegment (part : Part) (segment : List Char) : Except Fault Unit :=
  if segment.isEmpty then .error (.emptySegment part)
  else if part = .preRelease && segment.all Char.isDigit && 1 < segment.length
      && segment.getLast? == some '0' then
    .error (.leadingZero part)
  else .ok ()

/-- Reads the segments of an identifier. The segment so far is given latest first, and so is what
was read before it. -/
def readSegments (part : Part) (before segment : List Char) :
    List Char → Except Fault (List Char × List Char)
  | [] => (checkSegment part segment).map fun _ => ((segment ++ before).reverse, [])
  | c :: rest =>
    if isSegmentChar c then readSegments part before (c :: segment) rest
    else
      match checkSegment part segment with
      | .error fault => .error fault
      | .ok _ =>
        if c = '.' then readSegments part ('.' :: (segment ++ before)) [] rest
        else .ok ((segment ++ before).reverse, c :: rest)

/-- Reads an identifier behind its mark, if the mark is there. -/
def readIdentifier (part : Part) (mark : Char) (cs : List Char) :
    Except Fault (Bool × String × List Char) :=
  match cs with
  | c :: rest =>
    if c = mark then
      (readSegments part [] [] rest).map fun read => (true, String.ofList read.1, read.2)
    else .ok (false, "", cs)
  | [] => .ok (false, "", [])

/-- Reads a version. -/
def parse (source : String) : Except Fault Version := do
  if source.isEmpty then throw .empty
  let (major, rest) ← readDigits .major 0 0 source.toList
  let (minor, rest) ← readDigits .minor 0 0 (← readDot .major rest)
  let (patch, rest) ← readDigits .patch 0 0 (← readDot .minor rest)
  let (hasPreRelease, preRelease, rest) ← readIdentifier .preRelease '-' rest
  let (hasBuild, build, rest) ← readIdentifier .build '+' rest
  match rest with
  | [] => return { major, minor, patch, preRelease, build }
  | c :: _ =>
    let last := if hasBuild then Part.build else if hasPreRelease then .preRelease else .patch
    throw (.unexpectedAfter last c)

/-- Written form of a version. -/
def toText (version : Version) : String :=
  toString version.major ++ "." ++ toString version.minor ++ "." ++ toString version.patch
    ++ (if version.preRelease.isEmpty then "" else "-" ++ version.preRelease)
    ++ (if version.build.isEmpty then "" else "+" ++ version.build)

/-- Whether a version does not come before the release with the given numbers. -/
def isAtLeast (version : Version) (major minor patch : Nat) : Bool :=
  if version.major != major then major < version.major
  else if version.minor != minor then minor < version.minor
  else if version.patch != patch then patch < version.patch
  else version.preRelease.isEmpty

end Version

/-- Folder names of one generation of the game. -/
structure Folders where
  recipe : String
  lootTable : String
  blockTags : String
  itemTags : String
deriving DecidableEq, Repr

namespace Folders

/-- Names in the singular. -/
def singular : Folders :=
  { recipe := "recipe", lootTable := "loot_table", blockTags := "tags/block"
    itemTags := "tags/item" }

/-- Names in the plural. -/
def plural : Folders :=
  { recipe := "recipes", lootTable := "loot_tables", blockTags := "tags/blocks"
    itemTags := "tags/items" }

/-- Folders that the game loads at a version. -/
def accepted (version : Version) : Folders :=
  if version.isAtLeast 1 21 0 then singular else plural

/-- Folders that the game does not load at a version. -/
def rejected (version : Version) : Folders :=
  if version.isAtLeast 1 21 0 then plural else singular

end Folders

end Blockwright
