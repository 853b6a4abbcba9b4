import Blockwright.Archive
import Blockwright.Tree.Component

/-!
# Sources of assets

The assets of the base game are read by path from a folder, an archive or a list of entries. An
asset that is not there is no error; a path that could leave the source is.
-/

namespace Blockwright

/-- Why an asset cannot be read. -/
inductive SourceError where
  | disk (path : String) (fault : DiskFault)
  /-- The archive that should hold the assets has a fault. -/
  | archive (path : String) (fault : ArchiveFault)
  /-- An asset cannot be taken out of an archive. -/
  | packed (holder path : String) (fault : Zip.Fault)
  | unsafePath (path : String)
deriving DecidableEq, Repr

def SourceError.message : SourceError → String
  | .disk path fault => "Failed to read " ++ path ++ ": " ++ fault.message
  | .archive path (.disk fault) => "Failed to read " ++ path ++ ": " ++ fault.message
  | .archive path fault => "Asset archive " ++ path ++ ": " ++ fault.reason
  | .packed holder path fault =>
    if fault.isDamage then "Failed to read " ++ path ++ ": " ++ fault.message
    else "Asset archive " ++ holder ++ "!" ++ path ++ ": " ++ fault.message
  | .unsafePath path => "Rejected asset path: " ++ path

/-- What answers to the paths of assets. -/
structure AssetSource where
  /-- The bytes at a path, if there are any. -/
  read : String → Except SourceError (Option ByteArray)

/-- Entries held in memory, each name once. -/
structure AssetTable where
  entries : List Tree.Entry := []

namespace AssetTable

/-- Adds an entry in place of an earlier one with its name. -/
def insert (table : AssetTable) (entry : Tree.Entry) : AssetTable :=
  { entries := entry :: table.entries.filter (fun other => other.1 != entry.1) }

/-- The table of entries; the last of several with one name counts. -/
def ofEntries (entries : List Tree.Entry) : AssetTable := entries.foldl insert {}

/-- Number of entries. -/
def size (table : AssetTable) : Nat := table.entries.length

/-- Whether there are no entries. -/
def isEmpty (table : AssetTable) : Bool := table.entries.isEmpty

end AssetTable

namespace AssetSource

/-- Whether a path cannot leave a source: it does not start at the root, and no piece is empty or
goes up. -/
def isSafe (path : String) : Bool :=
  !path.toList.contains '\\'
    && (Text.splitOnChar '/' path).all fun piece => piece != "" && piece != ".."

/-- A source that refuses paths that could leave it. -/
def guarded (read : String → Except SourceError (Option ByteArray)) : AssetSource where
  read path := if isSafe path then read path else .error (.unsafePath path)

/-- The entries of a table. -/
def ofTable (table : AssetTable) : AssetSource :=
  guarded fun path => .ok (table.entries.lookup path)

/-- No assets at all. -/
def empty : AssetSource := ofTable {}

/-- Reads an asset below a folder of a disk. -/
def readBelow (disk : Disk) (home : Place) (folder path : String) :
    Except SourceError (Option ByteArray) :=
  match disk.read home (Path.append folder path) with
  | .ok bytes => .ok (some bytes)
  | .error .missing => .ok none
  | .error fault => .error (.disk path fault)

/-- The files below a folder of a disk. -/
def ofFolder (disk : Disk) (home : Place) (folder : String) : AssetSource :=
  guarded (readBelow disk home folder)

/-- The files of an archive. -/
def ofArchive (archive : Archive) : AssetSource :=
  guarded fun path => (archive.bytes? path).mapError (.packed archive.path path)

end AssetSource

/-- What a source of assets is. -/
inductive SourceKind where
  | folder
  | archive
  | nothing
deriving DecidableEq, Repr

namespace AssetSource

/-- Opens the source that a path leads to: an archive if the path says so, or else a folder.
Without a path there are no assets. -/
def ofPath (disk : Disk) (home : Place) :
    Option String → Except SourceError (SourceKind × AssetSource)
  | none => .ok (.nothing, empty)
  | some path =>
    if Path.isArchive path then
      match Archive.ofDisk disk home path with
      | .ok archive => .ok (.archive, ofArchive archive)
      | .error fault => .error (.archive path fault)
    else .ok (.folder, ofFolder disk home path)

end AssetSource

end Blockwright
