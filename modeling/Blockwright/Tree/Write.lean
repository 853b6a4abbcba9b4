import Blockwright.Disk.Basic
import Blockwright.Tree.Component
import Blockwright.Tree.File

/-!
# Writing a tree

The files of a mod are written below a folder in their order, up to the first that cannot be.
-/

namespace Blockwright

/-- Why a tree cannot be written. -/
inductive WriteError where
  | unsafePath (path : String)
  | placeholder (path : String)
  | disk (path : String) (fault : DiskFault)
deriving DecidableEq, Repr

def WriteError.message : WriteError → String
  | .unsafePath path => "Refusing to write outside the output directory: " ++ path
  | .placeholder path => "File " ++ path ++ " was never rendered"
  | .disk path fault => "Failed to write " ++ path ++ ": " ++ fault.message

namespace TreeFile

/-- The disk with a file of a tree below a folder. -/
def write (disk : Disk) (home : Place) (folder : String) (file : TreeFile) :
    Except WriteError Disk :=
  if !Path.isInside file.path then .error (.unsafePath file.path)
  else
    match file.bytes? with
    | none => .error (.placeholder file.path)
    | some bytes =>
      let path := Path.append folder file.path
      (disk.store home path bytes).mapError (.disk path)

/-- The disk with as many files of a tree below a folder as can be written, and the error that
keeps out the next, if there is one. -/
def writeAll (home : Place) (folder : String) : List TreeFile → Disk → Option WriteError × Disk
  | [], disk => (none, disk)
  | file :: rest, disk =>
    match file.write disk home folder with
    | .ok disk => writeAll home folder rest disk
    | .error error => (some error, disk)

end TreeFile

end Blockwright
