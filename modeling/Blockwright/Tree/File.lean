import Blockwright.Digest.Sha256
import Blockwright.Spec.Catalog

/-!
# Files of a mod

A file has a path and contents. A texture is a placeholder until it is rendered; its task says how.
A tree of files is identified by the digest of its listing: for each file, in path order, a line
with its path and the digest of its contents. -/

namespace Blockwright

/-- What a texture is used for. -/
inductive TextureRole where
  | item
  | block
  | entity
deriving DecidableEq, Repr

/-- Name of a role. -/
def TextureRole.name : TextureRole → String
  | .item => "item"
  | .block => "block"
  | .entity => "entity"

/-- The role with the given name. -/
def TextureRole.ofName? (name : String) : Option TextureRole :=
  [TextureRole.item, .block, .entity].find? (·.name == name)

/-- How one texture is made. It never influences the path of the file. -/
structure TextureTask where
  owner : AssetKey
  role : TextureRole
  material : Material
  profile : Profile
  archetype : Archetype
  color : Option Color
  source : TextureSource
  /-- Block of the base game that a template names, to match endings. -/
  template : Option String
  /-- Ending of the texture's name behind the owner's id. -/
  ending : String
  /-- Id that the hue is derived from; the members of a wood family share theirs. -/
  hueKey : String
  /-- Location of the texture, which also seeds synthesis. -/
  location : String
  width : UInt32
  height : UInt32
deriving DecidableEq, Repr

/-- What a file holds. -/
inductive Contents where
  | text (value : String)
  | binary (bytes : ByteArray)
  | placeholder

/-- A file. -/
structure TreeFile where
  /-- Path from the root of the mod. -/
  path : String
  contents : Contents
  task : Option TextureTask := none

namespace TreeFile

/-- A finished text file. -/
def ofText (path text : String) : TreeFile := { path, contents := .text text }

/-- Whether a file is a texture. -/
def isTexture (file : TreeFile) : Bool := ".png".toList.isSuffixOf file.path.toList

/-- Bytes of a file; none while it is a placeholder. -/
def bytes? (file : TreeFile) : Option ByteArray :=
  match file.contents with
  | .text value => some value.toUTF8
  | .binary bytes => some bytes
  | .placeholder => none

/-- Whether one file comes no later than another in path order. -/
def pathLe (first second : TreeFile) : Bool := !decide (second.path < first.path)

/-- Files in ascending order of their paths; files of one path keep their order. -/
def sort (files : List TreeFile) : List TreeFile := files.mergeSort pathLe

end TreeFile

namespace Tree

/-- A path with the bytes found there. -/
abbrev Entry := String × ByteArray

/-- The line of a file. -/
def line (entry : Entry) : List UInt8 :=
  Bytes.list entry.1.toUTF8 ++ 0 :: (Bytes.list (Sha256.hex entry.2).toUTF8 ++ [10])

/-- The lines of files in path order; files of one path keep their order. -/
def listing (entries : List Entry) : List UInt8 :=
  (entries.mergeSort fun first second => !decide (second.1 < first.1)).flatMap line

/-- The hash of a tree. -/
def hash (entries : List Entry) : String := Sha256.hex (Bytes.ofList (listing entries))

end Tree

end Blockwright
