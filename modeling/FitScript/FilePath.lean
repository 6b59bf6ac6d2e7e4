import FitScript.Text.Quoted
import FitScript.Text.Separate

/-!
# File paths

A path is any string of bytes, as file systems allow; its names stand between slashes.

* `fileName?`: the last name of a path, if it has one.
* `extension?`: what stands after the last dot of that name.
* `join`: a path followed by a name.
* `display` and `quoted`: a path in a message, bare or in double quotes.
-/

namespace FitScript

/-- A path of a file or directory. -/
structure FilePath where
  /-- The bytes of the path as the file system sees them. -/
  bytes : List UInt8
deriving DecidableEq

namespace FilePath

/-- The path with the bytes of a text. -/
def ofString (s : String) : FilePath :=
  ⟨Text.Utf8.encode s⟩

/-- The text that a path is, if it is one. -/
def text? (path : FilePath) : Option String :=
  Text.Utf8.decode? path.bytes

/-- A path as text, with U+FFFD for bytes that are none. -/
def display (path : FilePath) : String :=
  Text.Utf8.decodeLossy path.bytes

/-- A path in double quotes. -/
def quoted (path : FilePath) : String :=
  Text.quoteBytes path.bytes

/-! ## Names -/

/-- The byte `/`. -/
def slash : UInt8 := 0x2F

/-- The byte `.`. -/
def dot : UInt8 := 0x2E

/-- The names of a path, without empty ones and without `.`, which lead nowhere. -/
def names (path : FilePath) : List (List UInt8) :=
  (Text.separate slash path.bytes).filter fun name => name ≠ [] ∧ name ≠ [dot]

/-- The last name of a path; none for a path without names and for one that ends in `..`. -/
def fileName? (path : FilePath) : Option (List UInt8) :=
  match path.names.getLast? with
  | none => none
  | some name => if name = [dot, dot] then none else some name

/-- What stands before and after the last dot of a name, if it has a dot. -/
def splitLastDot (name : List UInt8) : Option (List UInt8 × List UInt8) :=
  match name.reverse.span (· ≠ dot) with
  | (_, []) => none
  | (after, _ :: before) => some (before.reverse, after.reverse)

/-- What stands after the last dot of the last name. A dot that leads the name separates
    nothing. -/
def extension? (path : FilePath) : Option (List UInt8) :=
  match path.fileName?.bind splitLastDot with
  | none => none
  | some (before, after) => if before = [] then none else some after

/-- Whether a path is one name that a directory can hold, such as `model.R`. -/
def isPlainName (path : FilePath) : Bool :=
  path.fileName? == some path.bytes

/-! ## Joining -/

/-- A path inside a directory. A path that starts with a slash does not depend on one. -/
def join (directory path : FilePath) : FilePath :=
  if path.bytes.head? = some slash then path
  else if directory.bytes = [] ∨ directory.bytes.getLast? = some slash then
    ⟨directory.bytes ++ path.bytes⟩
  else ⟨directory.bytes ++ slash :: path.bytes⟩

end FilePath

end FitScript
