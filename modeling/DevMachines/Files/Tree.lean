import DevMachines.Files.Path

/-!
# Directories and files

`FileTree` is a file system: what is found at every place that has something.  A place is the list of
names that lead to it from the root, which is always a directory; a path is followed from the root or
from a working directory.

A path is followed name by name, so every directory on the way must exist, and `x/..` needs an `x`.
The operations are those of a file system: find, read, write as a whole, append and remove, each
with the faults that it can have.
-/

namespace DevMachines

open Text (Octets)

/-- What is found under a path. -/
inductive FileEntry where
  | file (octets : Octets)
  | directory
  deriving DecidableEq, Repr, Inhabited

/-- Why an operation on a path failed. -/
inductive FileFault where
  | notFound
  | notDirectory
  | isDirectory
  | nameTooLong
  deriving DecidableEq, Repr

namespace FileFault

/-- The number and the wording of a fault. -/
def describe : FileFault → Nat × String
  | .notFound => (2, "No such file or directory")
  | .notDirectory => (20, "Not a directory")
  | .isDirectory => (21, "Is a directory")
  | .nameTooLong => (36, "File name too long")

/-- The class of a fault, as reports name it. -/
def kindName : FileFault → String
  | .notFound => "FileNotFoundError"
  | .notDirectory => "NotADirectoryError"
  | .isDirectory => "IsADirectoryError"
  | .nameTooLong => "OSError"

end FileFault

/-- A place: the names that lead to it from the root. -/
abbrev Place := List String

/-- A file system, each place at most once. -/
structure FileTree where
  entries : List (Place × FileEntry)
  deriving Repr, Inhabited

namespace FileTree

/-- The file system with nothing but its root. -/
def empty : FileTree := ⟨[]⟩

/-- What is at a place. -/
def get? (tree : FileTree) (place : Place) : Option FileEntry :=
  if place.isEmpty then some .directory else tree.entries.lookup place

/-- Puts an entry at a place; it keeps its position if there was one before. -/
def set (tree : FileTree) (place : Place) (entry : FileEntry) : FileTree :=
  if (tree.entries.lookup place).isSome then
    ⟨tree.entries.map fun (p, e) => if p = place then (p, entry) else (p, e)⟩
  else ⟨tree.entries ++ [(place, entry)]⟩

/-- Takes away the entry at a place, and what is below it. -/
def remove (tree : FileTree) (place : Place) : FileTree :=
  ⟨tree.entries.filter fun (p, _) => p.take place.length != place⟩

/-- Makes the directories on the way to a place. -/
def makeParents (tree : FileTree) (place : Place) : FileTree :=
  (List.range (place.length - 1)).foldl (fun tree n =>
    let parent := place.take (n + 1)
    if (tree.get? parent).isSome then tree else tree.set parent .directory) tree

/-- The longest name that a file system takes, in octets. -/
def nameLimit : Nat := 255

/-- The length in octets from which on a path is too long for a file system. -/
def pathLimit : Nat := 4096

/-- Follows names from a place.  The last name need not exist; from the root, up leads nowhere. -/
def follow (tree : FileTree) : Place → List String → Except FileFault Place
  | place, [] => .ok place
  | place, name :: rest =>
      match tree.get? place with
      | none => .error .notFound
      | some (.file _) => .error .notDirectory
      | some .directory =>
          if name == ".." then follow tree place.dropLast rest
          else if nameLimit < name.utf8ByteSize then .error .nameTooLong
          else follow tree (place ++ [name]) rest

/-- Where a path leads from a working directory, whose absolute path is given. -/
def destination (tree : FileTree) (here : Path) (p : Path) : Except FileFault Place :=
  if pathLimit ≤ p.toText.utf8ByteSize then .error .nameTooLong
  else tree.follow (if p.isAbsolute then [] else here.names) p.names

/-- What is found under a path. -/
def find (tree : FileTree) (here p : Path) : Except FileFault FileEntry := do
  match tree.get? (← tree.destination here p) with
  | some entry => pure entry
  | none => throw .notFound

/-- Is there something under a path?  A name that is too long is a fault even for the question. -/
def contains (tree : FileTree) (here p : Path) : Except FileFault Bool :=
  if p.hasNul then .ok false
  else
    match tree.find here p with
    | .ok _ => .ok true
    | .error .nameTooLong => .error .nameTooLong
    | .error _ => .ok false

/-- The octets of a file. -/
def read (tree : FileTree) (here p : Path) : Except FileFault Octets := do
  match ← tree.find here p with
  | .file octets => pure octets
  | .directory => throw .isDirectory

/-- The place of a file that can be written: its directory exists, and it is no directory. -/
def writablePlace (tree : FileTree) (here p : Path) : Except FileFault Place := do
  let place ← tree.destination here p
  match tree.get? place with
  | some .directory => throw .isDirectory
  | _ => pure place

/-- Writes a file as a whole. -/
def write (tree : FileTree) (here p : Path) (octets : Octets) : Except FileFault FileTree := do
  pure (tree.set (← tree.writablePlace here p) (.file octets))

/-- Adds octets at the end of a file, which is made if it is not there. -/
def append (tree : FileTree) (here p : Path) (octets : Octets) : Except FileFault FileTree := do
  let place ← tree.writablePlace here p
  match tree.get? place with
  | some (.file before) => pure (tree.set place (.file (before ++ octets)))
  | _ => pure (tree.set place (.file octets))

end FileTree
end DevMachines
