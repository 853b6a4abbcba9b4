import Blockwright.Text.Words

/-!
# Disks

A disk holds folders and files at places. Paths are followed piece by piece from a place: a piece
names an entry of a folder, a dot stays, two dots go up, and a separator at the end asks for a
folder. Nothing on a disk is a link to another place.
-/

namespace Blockwright

/-- The names that lead to a place from the root. -/
abbrev Place := List String

/-- What stands at a place. -/
inductive Node where
  | folder
  | file (bytes : ByteArray)

/-- Why a disk refuses a request. -/
inductive DiskFault where
  | missing
  /-- A file stands where a folder should be made. -/
  | exists
  | notFolder
  /-- A folder stands where a file is needed. -/
  | isFolder
  | longName
  | zeroCharacter
  | notText
deriving DecidableEq, Repr

def DiskFault.message : DiskFault → String
  | .missing => "No such file or directory (os error 2)"
  | .exists => "File exists (os error 17)"
  | .notFolder => "Not a directory (os error 20)"
  | .isFolder => "Is a directory (os error 21)"
  | .longName => "File name too long (os error 36)"
  | .zeroCharacter => "file name contained an unexpected NUL byte"
  | .notText => "stream did not contain valid UTF-8"

/-- Folders and files, without symbolic links. The root is always a folder. -/
structure Disk where
  /-- What stands at places below the root. -/
  nodes : List (Place × Node) := []

namespace Disk

/-- What stands at a place. -/
def node? (disk : Disk) (place : Place) : Option Node :=
  if place = [] then some .folder else disk.nodes.lookup place

/-- The disk with something at a place. -/
def put (disk : Disk) (place : Place) (node : Node) : Disk :=
  { nodes := (place, node) :: disk.nodes.filter (fun entry => entry.1 != place) }

/-- Number of bytes that a name may have. -/
def nameLimit : Nat := 255

/-- Goes one piece further from a place, which must be a folder. -/
def step (disk : Disk) (place : Place) (piece : String) : Except DiskFault Place :=
  match disk.node? place with
  | none => .error .missing
  | some (.file _) => .error .notFolder
  | some .folder =>
    if piece = "" || piece = "." then .ok place
    else if piece = ".." then .ok place.dropLast
    else if nameLimit < piece.utf8ByteSize then .error .longName
    else .ok (place ++ [piece])

/-- The place that a path starts from: the root, or the place where one is. -/
def start (home : Place) (path : String) : Place :=
  if path.toList.head? = some '/' then [] else home

/-- Accepts a path that can be given to a disk. -/
def checkPath (path : String) : Except DiskFault Unit :=
  if path.toList.contains '\x00' then .error .zeroCharacter
  else if path = "" then .error .missing
  else .ok ()

/-- The place that a path leads to, whether anything stands there or not. -/
def follow (disk : Disk) (home : Place) (path : String) : Except DiskFault Place := do
  checkPath path
  (Text.splitOnChar '/' path).foldlM disk.step (start home path)

/-- The bytes of the file that a path leads to. -/
def read (disk : Disk) (home : Place) (path : String) : Except DiskFault ByteArray := do
  match disk.node? (← disk.follow home path) with
  | none => throw .missing
  | some .folder => throw .isFolder
  | some (.file bytes) => return bytes

/-- The text of the file that a path leads to. -/
def readText (disk : Disk) (home : Place) (path : String) : Except DiskFault String := do
  match String.fromUTF8? (← disk.read home path) with
  | some text => return text
  | none => throw .notText

/-- The disk with a file at a place, which must not be a folder. -/
def putFile (disk : Disk) (place : Place) (bytes : ByteArray) : Except DiskFault Disk :=
  match disk.node? place with
  | some .folder => .error .isFolder
  | _ => .ok (disk.put place (.file bytes))

/-- Writes a file at a path into a folder that exists. The last piece must name the file; a
separator behind it asks for a folder. -/
def write (disk : Disk) (home : Place) (path : String) (bytes : ByteArray) :
    Except DiskFault Disk := do
  checkPath path
  let pieces := Text.splitOnChar '/' path
  let named := (pieces.reverse.dropWhile (· == "")).reverse
  let folder ← named.dropLast.foldlM disk.step (start home path)
  let name := named.getLastD ""
  let place ← disk.step folder name
  if name = "" || name = "." || name = ".." || named.length < pieces.length then throw .isFolder
  disk.putFile place bytes

/-- Follows pieces from a place and makes the folders that are missing on the way. -/
def makeFolders (disk : Disk) (place : Place) : List String → Except DiskFault (Disk × Place)
  | [] =>
    match disk.node? place with
    | some (.file _) => .error .exists
    | _ => .ok (disk, place)
  | piece :: rest => do
    let next ← disk.step place piece
    let disk := if (disk.node? next).isNone then disk.put next .folder else disk
    makeFolders disk next rest

/-- Writes a file at a path and makes the folders that are missing on the way. Separators and dots
behind the last name ask for a folder. -/
def store (disk : Disk) (home : Place) (path : String) (bytes : ByteArray) :
    Except DiskFault Disk := do
  checkPath path
  let pieces := Text.splitOnChar '/' path
  let named := (pieces.reverse.dropWhile fun piece => piece == "" || piece == ".").reverse
  let (disk, folder) ← disk.makeFolders (start home path) named.dropLast
  let name := named.getLastD ""
  let place ← disk.step folder name
  if name = "" || name = ".." || named.length < pieces.length then throw .isFolder
  disk.putFile place bytes

/-- The disk on which a folder holds the given files. A file that another one is in the way of is
left out. -/
def ofFiles (home : Place) (files : List (String × ByteArray)) : Disk :=
  let empty : Disk :=
    { nodes := (List.range home.length).map fun depth => (home.take (depth + 1), .folder) }
  files.foldl (fun disk file => (disk.store home file.1 file.2).toOption.getD disk) empty

/-- The files below a place, with the paths that lead to them from there. -/
def filesBelow (disk : Disk) (place : Place) : List (String × ByteArray) :=
  disk.nodes.filterMap fun entry =>
    match entry.2 with
    | .file bytes =>
      if place.isPrefixOf entry.1 then some (Text.join "/" (entry.1.drop place.length), bytes)
      else none
    | .folder => none

end Disk

end Blockwright
