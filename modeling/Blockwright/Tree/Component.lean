import Blockwright.Text.Words

/-!
# Components of paths

How the file system reads a path: separators may be repeated, and a dot counts only at the very
beginning.
-/

namespace Blockwright

/-- A step of a path. -/
inductive Component where
  | root
  | here
  | above
  | name (value : String)
deriving DecidableEq, Repr

namespace Component

/-- The step of a piece between separators behind the first, if it is one. -/
def ofPiece? (piece : String) : Option Component :=
  if piece = "" then none
  else if piece = "." then none
  else if piece = ".." then some .above
  else some (.name piece)

/-- The step of the piece before the first separator, if it is one. -/
def ofFirst? (piece : String) : Option Component :=
  if piece = "." then some .here else ofPiece? piece

/-- The steps of a path. -/
def ofPath (path : String) : List Component :=
  match Text.splitOnChar '/' path with
  | [] => []
  | first :: rest =>
    let root := if first = "" && !rest.isEmpty then [root] else []
    root ++ (ofFirst? first).toList ++ rest.filterMap ofPiece?

/-- Whether a step leads to a named entry. -/
def isName : Component → Bool
  | .name _ => true
  | _ => false

end Component

namespace Path

/-- Whether a path stays inside the folder that it starts from: it has only named steps. -/
def isInside (path : String) : Bool :=
  path != "" && (Component.ofPath path).all Component.isName

/-- A path that is followed from the folder that another path leads to. An absolute path stays. -/
def append (folder path : String) : String :=
  if path.toList.head? = some '/' || folder = "" then path
  else if folder.toList.getLast? = some '/' then folder ++ path
  else folder ++ "/" ++ path

/-- Name of the entry that a path leads to. -/
def fileName? (path : String) : Option String :=
  match (Component.ofPath path).getLast? with
  | some (.name value) => some value
  | _ => none

/-- What stands behind the last dot of a file name, unless that dot is its first character. -/
def ending? (path : String) : Option String := do
  let name ← fileName? path
  let ending := Text.afterLast '.' name
  if ending.length + 1 < name.length then some ending else none

/-- Whether a path names an archive. -/
def isArchive (path : String) : Bool :=
  match ending? path with
  | some ending => ending.toLower == "zip" || ending.toLower == "jar"
  | none => false

end Path

end Blockwright
