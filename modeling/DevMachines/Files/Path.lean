import DevMachines.Text.Utf8

/-!
# Paths

A path is kept in normal form: a root of no, one or two slashes, and names.  Empty names and single
dots are dropped when a text is read; `..` stays, because a name before it may be a link or may not
exist.  So two texts name the same path exactly when their normal forms are equal, and the text of a
path is read back as that path.

`Path.expandHome` replaces a leading tilde by the home directory.
-/

namespace DevMachines

/-- A path in normal form. -/
structure Path where
  /-- How many slashes it begins with: none, one or two. -/
  root : Nat
  names : List String
  deriving DecidableEq, Repr, Inhabited

/-- Why a leading tilde could not be replaced. -/
inductive HomeFault where
  | unknownHome
  | nulCharacter
  deriving DecidableEq, Repr

namespace Path

/-- The parts of a text between slashes. -/
def splitSlashes (text : String) : List String :=
  (go text.toList).map String.ofList
where
  /-- The first part is under construction at the head. -/
  go : List Char → List (List Char)
    | [] => [[]]
    | '/' :: rest => [] :: go rest
    | c :: rest =>
        match go rest with
        | part :: parts => (c :: part) :: parts
        | [] => [[c]]

/-- The number of slashes that count as the root: two stay two, three or more are one. -/
def rootOf (cs : List Char) : Nat :=
  match (cs.takeWhile (· == '/')).length with
  | 0 => 0
  | 2 => 2
  | _ => 1

/-- Reads a path. -/
def ofText (text : String) : Path :=
  { root := rootOf text.toList
    names := (splitSlashes text).filter fun name => !(name.isEmpty || name == ".") }

/-- Writes a path; the empty relative path is a dot. -/
def toText (p : Path) : String :=
  let text := String.ofList (List.replicate p.root '/') ++ "/".intercalate p.names
  if text.isEmpty then "." else text

/-- Does the path start at a root? -/
def isAbsolute (p : Path) : Bool := p.root != 0

/-- The path of a name in a directory. -/
def child (p : Path) (name : String) : Path := { p with names := p.names ++ [name] }

/-- Does the path contain a NUL character, which no file system takes? -/
def hasNul (p : Path) : Bool := p.names.any fun name => name.toList.contains '\x00'

/-- The text without the slashes at its end. -/
def dropFinalSlashes (text : String) : String :=
  String.ofList (text.toList.reverse.dropWhile (· == '/')).reverse

/-- Replaces a leading tilde by the home directory.  Only the caller's own home is known. -/
def expandHome (home : String) (p : Path) : Except HomeFault Path :=
  match p.root, p.names with
  | 0, first :: rest =>
      if first == "~" then
        let directory := dropFinalSlashes home
        let directory := if directory.isEmpty && rest.isEmpty then "/" else directory
        if directory.startsWith "~" then .error .unknownHome
        else .ok (ofText ("/".intercalate (directory :: rest)))
      else if first.startsWith "~" then
        if first.toList.contains '\x00' then .error .nulCharacter else .error .unknownHome
      else .ok p
  | _, _ => .ok p

/-- Names with `..` worked out: each removes the name before it, and at the front it is dropped. -/
def resolveNames (names : List String) : List String :=
  (names.foldl (fun acc name => if name == ".." then acc.tail else name :: acc) []).reverse

/-- The absolute path that a path names from a directory, without any `..`. -/
def absolute (directory p : Path) : Path :=
  if p.isAbsolute then { p with names := resolveNames p.names }
  else { directory with names := resolveNames (directory.names ++ p.names) }

end Path
end DevMachines
