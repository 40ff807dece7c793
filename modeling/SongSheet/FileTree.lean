/-
SongSheet/FileTree.lean

Files in a tree of directories, and reading them by path.

A path is a text of names between slashes.  It is followed from the root if it
starts with a slash, and else from the home directory: an empty name and `.` stay
where they are, `..` goes up, and any other name goes down.  Nothing lies below a
file, so that a path that goes on behind one leads nowhere, even if it only ends
in a slash.

A name takes 255 bytes at most and a path 4095.
-/
import SongSheet.ProgramError
import SongSheet.Text.Split

namespace SongSheet

/-- Files by place, a list of names from the root on, and a directory from which
paths start. -/
structure FileTree where
  files : List (List String × ByteArray)
  home : List String

namespace FileTree

/-- The largest number of bytes of a name. -/
def nameLimit : Nat := 255

/-- The largest number of bytes of a path. -/
def pathLimit : Nat := 4095

/-- The names of a path. -/
def names (path : String) : List String := (Text.splitAll '/' path.toList).map String.ofList

/-- There is a file at a place. -/
def isFile (t : FileTree) (place : List String) : Bool := (t.files.lookup place).isSome

/-- There is a directory at a place: the home directory, one with a file in it, or one
above these. -/
def isDirectory (t : FileTree) (place : List String) : Bool :=
  place.isPrefixOf t.home || t.files.any fun (p, _) => place.isPrefixOf p && place != p

/-- Follows names from a place. -/
def follow (t : FileTree) : List String → List String → Except FileError (List String)
  | place, [] => .ok place
  | place, name :: names =>
      if t.isFile place then .error .notDirectory
      else if name = "" ∨ name = "." then follow t place names
      else if name = ".." then follow t place.dropLast names
      else if nameLimit < name.utf8ByteSize then .error .nameTooLong
      else
        let next := place ++ [name]
        if t.isFile next || t.isDirectory next then follow t next names else .error .missing

/-- Follows a path. -/
def find (t : FileTree) (path : String) : Except FileError (List String) :=
  if path = "" then .error .missing
  else if pathLimit < path.utf8ByteSize then .error .nameTooLong
  else follow t (if path.startsWith "/" then [] else t.home) (names path)

/-- Reads the text of the file at a path. -/
def read (t : FileTree) (path : String) : Except FileError (List Char) :=
  match t.find path with
  | .error e => .error e
  | .ok place =>
      match t.files.lookup place with
      | some bytes => FileError.decode bytes
      | none => .error .directory

end FileTree

end SongSheet
