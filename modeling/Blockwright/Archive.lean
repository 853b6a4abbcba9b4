import Blockwright.Bisection
import Blockwright.Disk.Basic
import Blockwright.Text.Ascending
import Blockwright.Tree.File
import Blockwright.Zip.Directory

/-!
# Packed mods

A mod is delivered as a zip archive with its files in the order of their names. Opened again, an
archive lists the names of its files in ascending order; their bytes are taken out when asked for.
-/

namespace Blockwright

/-- Why a file cannot be opened as an archive or become one. -/
inductive ArchiveFault where
  | disk (fault : DiskFault)
  | noDirectory
  | isFolder
  | repeatedName
deriving DecidableEq, Repr

def ArchiveFault.reason : ArchiveFault → String
  | .disk fault => fault.message
  | .noDirectory => "invalid Zip archive: Could not find EOCD"
  | .isFolder => "i/o error: " ++ DiskFault.isFolder.message
  | .repeatedName => "invalid Zip archive: Duplicate filename"

/-- Why an archive cannot be packed, opened or read. -/
inductive ArchiveError where
  /-- The archive at a path has a fault. -/
  | file (path : String) (fault : ArchiveFault)
  | entry (path name : String) (fault : Zip.Fault)
  /-- There is no entry with a listed name. -/
  | missing (path name : String)
  /-- A file to pack is a placeholder. -/
  | placeholder (path : String)
deriving DecidableEq, Repr

def ArchiveError.message : ArchiveError → String
  | .file path (.disk fault) => "Failed to open " ++ path ++ ": " ++ fault.message
  | .file path fault => path ++ " is not a readable zip: " ++ fault.reason
  | .entry path name fault =>
    "Entry " ++ name ++ " in " ++ path ++ " is unreadable: " ++ fault.message
  | .missing path name =>
    "Entry " ++ name ++ " in " ++ path ++ " is unreadable: listed but missing"
  | .placeholder path => "Cannot pack " ++ path ++ ": contents were never rendered"

/-- An opened archive. -/
structure Archive where
  path : String
  bytes : List UInt8
  /-- Its members; of several with one name the last counts. -/
  members : List Zip.Member

namespace Archive

/-- Whether a name is that of a folder. -/
def isFolderName (name : String) : Bool := name.toList.getLast? = some '/'

/-- Opens the bytes found at a path. -/
def ofBytes (path : String) (bytes : ByteArray) : Except ArchiveFault Archive :=
  let bytes := Bytes.list bytes
  match Zip.members? bytes with
  | some members => .ok { path, bytes, members }
  | none => .error .noDirectory

/-- Opens the archive that a path on a disk leads to. -/
def ofDisk (disk : Disk) (home : Place) (path : String) : Except ArchiveFault Archive :=
  match disk.read home path with
  | .ok bytes => ofBytes path bytes
  | .error .isFolder => .error .isFolder
  | .error fault => .error (.disk fault)

/-- The member with a name. -/
def member? (archive : Archive) (name : String) : Option Zip.Member :=
  archive.members.reverse.find? (·.name == name)

/-- The names of the files, ascending. -/
def names (archive : Archive) : List String :=
  Text.ascending ((archive.members.map Zip.Member.name).filter fun name => !isFolderName name)

/-- Whether there is a file with a name. -/
def contains (archive : Archive) (name : String) : Bool :=
  (Bisection.find? id archive.names name).isSome

/-- The bytes of the entry with a name, if there is one. -/
def bytes? (archive : Archive) (name : String) : Except Zip.Fault (Option ByteArray) :=
  match archive.member? name with
  | some member => (member.bytes archive.bytes).map some
  | none => .ok none

/-- The bytes of the entry with a name, if there is one. A fault tells which entry it is. -/
def read (archive : Archive) (name : String) : Except ArchiveError (Option ByteArray) :=
  (archive.bytes? name).mapError (.entry archive.path name)

/-- The file with a listed name. -/
def entry (archive : Archive) (name : String) : Except ArchiveError Tree.Entry := do
  match ← archive.read name with
  | some bytes => return (name, bytes)
  | none => throw (.missing archive.path name)

/-- The next file whose name passes a test, and the names behind it. -/
def next? (archive : Archive) (test : String → Bool) :
    List String → Option (Except ArchiveError Tree.Entry × List String)
  | [] => none
  | name :: rest => if test name then some (archive.entry name, rest) else archive.next? test rest

theorem length_of_next? {archive : Archive} {test : String → Bool} {names rest : List String}
    {found : Except ArchiveError Tree.Entry}
    (isNext : archive.next? test names = some (found, rest)) :
    rest.length < names.length := by
  induction names with
  | nil => cases isNext
  | cons name behind ih =>
    rw [next?] at isNext
    split at isNext
    · cases isNext
      exact Nat.lt_succ_self _
    · exact Nat.lt_trans (ih isNext) (Nat.lt_succ_self _)

/-- The files whose names pass a test, read one after another. -/
def readAll (archive : Archive) (test : String → Bool) (names : List String) :
    List (Except ArchiveError Tree.Entry) :=
  match _isNext : archive.next? test names with
  | none => []
  | some (found, rest) => found :: archive.readAll test rest
termination_by names.length
decreasing_by exact length_of_next? _isNext

/-- The files whose names pass a test, in the order of their names. -/
def entries (archive : Archive) (test : String → Bool) : List (Except ArchiveError Tree.Entry) :=
  archive.readAll test archive.names

/-- Entries in ascending order of their names. -/
def sort (entries : List Tree.Entry) : List Tree.Entry :=
  entries.mergeSort fun first second => !decide (second.1 < first.1)

/-- The archive of entries that are written in a given way. No name may occur twice. -/
def packWith (write : List Tree.Entry → List UInt8) (entries : List Tree.Entry) :
    Except ArchiveFault ByteArray :=
  if (entries.map Prod.fst).Nodup then .ok (Bytes.ofList (write (sort entries)))
  else .error .repeatedName

/-- The entries of files, which must all be finished. -/
def entriesOf (files : List TreeFile) : Except ArchiveError (List Tree.Entry) :=
  files.mapM fun file =>
    match file.bytes? with
    | some bytes => .ok (file.path, bytes)
    | none => .error (.placeholder file.path)

/-- The archive of files, written in a given way, to be saved at a path. -/
def packFiles (write : List Tree.Entry → List UInt8) (path : String) (files : List TreeFile) :
    Except ArchiveError ByteArray := do
  (packWith write (← entriesOf files)).mapError (.file path)

end Archive

end Blockwright
