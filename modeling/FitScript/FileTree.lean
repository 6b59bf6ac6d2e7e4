import FitScript.Failure
import FitScript.Keyed

/-!
# File trees

Files and directories, and what reading and writing them by path comes to. There are no links in a
tree, neither symbolic nor hard ones: a location holds an entry of its own.

* `FileTree`: the entries of a file system, and the directory that relative paths start from.
* `FileTree.find`: what stands at a path.
* `FileTree.read` and `FileTree.write`: the content of a file, and the tree with another content.
* `FileTree.changes`: the files by which a tree differs from an earlier one.
-/

namespace FitScript

/-- The names that lead from the root to an entry. -/
abbrev Location := List (List UInt8)

/-- A file or directory. -/
inductive Entry where
  | directory
  | file (content : List UInt8)
deriving DecidableEq

/-- Files and directories by their location. The root itself is not listed. No entry is a link to
    another one, so that what is written at one location changes no other. -/
structure FileTree where
  entries : Keyed Location Entry
  /-- The current directory, from which relative paths lead. -/
  current : Location
deriving DecidableEq

namespace FileTree

/-- The entry at a location. -/
def lookup? (tree : FileTree) (location : Location) : Option Entry :=
  if location = [] then some .directory else tree.entries.lookup location

/-- The tree with an entry at a location. -/
def set (tree : FileTree) (location : Location) (entry : Entry) : FileTree :=
  { tree with entries := tree.entries.put location entry }

theorem lookup?_set_self {location : Location} (h : location ≠ []) (tree : FileTree)
    (entry : Entry) : (tree.set location entry).lookup? location = some entry := by
  simp only [lookup?, set, h, if_false, Keyed.lookup_put_self]

theorem lookup?_set_of_ne {location other : Location} (h : other ≠ location) (tree : FileTree)
    (entry : Entry) : (tree.set location entry).lookup? other = tree.lookup? other := by
  simp only [lookup?, set, Keyed.lookup_put_of_ne h]

/-! ## Paths -/

/-- What stands at a path. -/
inductive Target where
  | entry (location : Location) (entry : Entry)
  /-- Nothing, but a directory that could hold it. -/
  | absent (location : Location)
deriving DecidableEq

/-- The longest name that a directory can hold. -/
def longestName : Nat := 255

/-- The longest path. -/
def longestPath : Nat := 4095

/-- Follows names from an entry. Every name but the last must lead to a directory; the directory
    above the root is the root. -/
def follow (tree : FileTree) (location : Location) (entry : Entry) :
    List (List UInt8) → Except FileError Target
  | [] => .ok (.entry location entry)
  | name :: rest =>
    match entry with
    | .file _ => .error .notDirectory
    | .directory =>
      if name = [FilePath.dot] then tree.follow location entry rest
      else if name = [FilePath.dot, FilePath.dot] then
        tree.follow location.dropLast .directory rest
      else if longestName < name.length then .error .nameTooLong
      else
        match tree.lookup? (location ++ [name]) with
        | some entry => tree.follow (location ++ [name]) entry rest
        | none => if rest = [] then .ok (.absent (location ++ [name])) else .error .notFound

/-- The names to follow for a path. A slash at the end asks for a directory, as a dot does. -/
def steps (path : FilePath) : List (List UInt8) :=
  let names := (Text.separate FilePath.slash path.bytes).filter (· ≠ [])
  if path.bytes.getLast? = some FilePath.slash then names ++ [[FilePath.dot]] else names

/-- What stands at a path. -/
def find (tree : FileTree) (path : FilePath) : Except FileError Target :=
  if 0 ∈ path.bytes then .error .zeroInPath
  else if path.bytes = [] then .error .notFound
  else if longestPath < path.bytes.length then .error .nameTooLong
  else
    let start := if path.bytes.head? = some FilePath.slash then [] else tree.current
    tree.follow start .directory (steps path)

/-! ## Files -/

/-- The content of the file at a path. -/
def read (tree : FileTree) (path : FilePath) : Except FileError (List UInt8) := do
  match ← tree.find path with
  | .entry _ (.file content) => pure content
  | .entry _ .directory => throw .isDirectory
  | .absent _ => throw .notFound

/-- The tree with a content at a path, where a file or nothing must stand. -/
def write (tree : FileTree) (path : FilePath) (content : List UInt8) :
    Except FileError FileTree := do
  match ← tree.find path with
  | .entry location (.file _) | .absent location => pure (tree.set location (.file content))
  | .entry _ .directory => throw .isDirectory

/-- Whether anything stands at a path. -/
def exists? (tree : FileTree) (path : FilePath) : Bool :=
  match tree.find path with
  | .ok (.entry _ _) => true
  | _ => false

/-- The files of a tree. -/
def files (tree : FileTree) : List (Location × List UInt8) :=
  tree.entries.filterMap fun (location, entry) =>
    match entry with
    | .file content => some (location, content)
    | .directory => none

/-- The files whose content an earlier tree does not have at their location. -/
def changes (earlier later : FileTree) : List (Location × List UInt8) :=
  later.files.filter fun (location, content) => earlier.lookup? location ≠ some (.file content)

/-! ## Construction -/

/-- The tree with directories at a location and above it. -/
def makeDirectories (tree : FileTree) (location : Location) : FileTree :=
  (List.range location.length).foldl
    (fun tree i => tree.set (location.take (i + 1)) .directory) tree

/-- A tree without files, in which a location is the current directory. -/
def emptyAt (current : Location) : FileTree :=
  makeDirectories ⟨[], current⟩ current

/-- The location that plain names in a relative path lead to. -/
def locationOf (tree : FileTree) (path : FilePath) : Location :=
  tree.current ++ path.names

/-- The tree with a directory at a relative path of plain names, and directories above it. -/
def addDirectory (tree : FileTree) (path : FilePath) : FileTree :=
  tree.makeDirectories (tree.locationOf path)

/-- The tree with a file at a relative path of plain names, and directories above it. -/
def addFile (tree : FileTree) (path : FilePath) (content : List UInt8) : FileTree :=
  let location := tree.locationOf path
  (tree.makeDirectories location.dropLast).set location (.file content)

/-- The names that lead from the current directory to a location below it. -/
def relative? (tree : FileTree) (location : Location) : Option Location :=
  if tree.current.isPrefixOf location then some (location.drop tree.current.length) else none

/-- The path that consists of some names. -/
def pathOf : Location → FilePath
  | [] => ⟨[]⟩
  | [name] => ⟨name⟩
  | name :: rest => ⟨name ++ FilePath.slash :: (pathOf rest).bytes⟩

end FileTree

end FitScript
