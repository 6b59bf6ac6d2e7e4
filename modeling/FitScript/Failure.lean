import FitScript.FilePath
import FitScript.Violation

/-!
# Failures

Everything that can go wrong between a document and a script.

* `LookupError`, `OptionsError`, `FileError`: what goes wrong with templates, with the options of
  a script, and with files and programs.
* `Failure`: any of these, a violation, or a document that cannot be read.
* `Failure.message`: the wording. `Failure.cause?`: the wording of what lies behind a failure.
-/

namespace FitScript

/-! ## Templates -/

/-- A category or fragment that a template table lacks. -/
inductive LookupError where
  | unknownCategory (category : String)
  | unknownFragment (category key : String)
deriving DecidableEq

/-- The wording of a lookup error. -/
def LookupError.message : LookupError → String
  | unknownCategory category => s!"Unknown template category '{category}'"
  | unknownFragment category key => s!"Template category '{category}' has no fragment '{key}'"

/-! ## Options -/

/-- An option that would make a broken script or write it elsewhere. -/
inductive OptionsError where
  /-- An option names a variable that cannot stand unquoted in a script. -/
  | invalidVariable (option name : String)
  | emptyPlaceholder
  | invalidFileName (name : String)
deriving DecidableEq

/-- The wording of an options error. -/
def OptionsError.message : OptionsError → String
  | invalidVariable option name => s!"{option} '{name}' is not a syntactic R name"
  | emptyPlaceholder => "placeholder must not be empty"
  | invalidFileName name => s!"file name '{name}' must be a plain file name ending in .R"

/-! ## Files and programs -/

/-- Why a file cannot be read or written, or a program not be started. -/
inductive FileError where
  | notFound
  | permissionDenied
  | notDirectory
  | isDirectory
  | nameTooLong
  /-- A path holds a zero byte. -/
  | zeroInPath
  /-- A program or one of its arguments holds a zero byte. -/
  | zeroInArgument
  /-- An argument of a program is longer than the system allows. -/
  | argumentTooLong
  /-- The content of a file is not UTF-8. -/
  | notText
  | other (message : String)
deriving DecidableEq

/-- The wording of a file error. -/
def FileError.message : FileError → String
  | notFound => "No such file or directory (os error 2)"
  | permissionDenied => "Permission denied (os error 13)"
  | notDirectory => "Not a directory (os error 20)"
  | isDirectory => "Is a directory (os error 21)"
  | nameTooLong => "File name too long (os error 36)"
  | zeroInPath => "file name contained an unexpected NUL byte"
  | zeroInArgument => "nul byte found in provided data"
  | argumentTooLong => "Argument list too long (os error 7)"
  | notText => "stream did not contain valid UTF-8"
  | other message => message

/-! ## Failures -/

/-- Why there is no script (`ScriptError`). -/
inductive Failure where
  | violation (v : Violation)
  | lookup (e : LookupError)
  /-- A document that is not JSON, or not the JSON that is asked for. -/
  | document (message : String)
  | unsupportedSchema (version : String) (supported : List String)
  | options (e : OptionsError)
  | file (path : FilePath) (e : FileError)
  | header (path : FilePath) (message : String)
  | interpreterNotFound
  | interpreter (program : FilePath) (e : FileError)
deriving DecidableEq

namespace Failure

/-- The wording of a failure. -/
def message : Failure → String
  | violation v => v.message
  | lookup e => e.message
  | document message => "Failed to parse JSON: " ++ message
  | unsupportedSchema version supported =>
    s!"Unsupported schema version '{version}'. Supported versions: " ++ ", ".intercalate supported
  | options e => "Invalid configuration: " ++ e.message
  | file path e => "I/O error on " ++ path.quoted ++ ": " ++ e.message
  | header path message => "Failed to read CSV header from " ++ path.quoted ++ ": " ++ message
  | interpreterNotFound => "Rscript executable not found; install R or set R_HOME"
  | interpreter program e => "Failed to run " ++ program.display ++ ": " ++ e.message

/-- The wording of what lies behind a failure, where that is told apart from the failure. -/
def cause? : Failure → Option String
  | document message => some message
  | file _ e => some e.message
  | _ => none

end Failure

end FitScript
