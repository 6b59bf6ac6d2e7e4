import FitScript.Cli.Run

/-!
# The command line

* `main`: runs the command line on the system at hand. It reads and writes files, and starts no
  other program, so that no interpreter is found to check a script.
-/

namespace FitScript

/-- The number of a system error, which the system may give with its sign changed. -/
def errorNumber (code : UInt32) : UInt32 :=
  if code < 0x80000000 then code else 0 - code

/-- Why the system could not do something. -/
def FileError.ofSystem (e : IO.Error) : FileError :=
  match e with
  | .noFileOrDirectory _ _ _ => .notFound
  | .permissionDenied _ _ _ => .permissionDenied
  | .inappropriateType _ code _ | .invalidArgument _ code _ =>
    if errorNumber code = 20 then .notDirectory
    else if errorNumber code = 21 then .isDirectory
    else if errorNumber code = 36 then .nameTooLong
    else .other (toString e)
  | _ => .other (toString e)

/-- Runs an operation on the file at a path, which must be a text without zero bytes. -/
def onFile (path : FilePath) (operation : String → IO α) : IO (Except FileError α) :=
  match path.text? with
  | none => pure (.error .notFound)
  | some text =>
    if 0 ∈ path.bytes then pure (.error .zeroInPath)
    else
      try return .ok (← operation text)
      catch e => return .error (FileError.ofSystem e)

/-- The system at hand. -/
def systemHost : Host IO where
  read path := onFile path fun text => return (← IO.FS.readBinFile text).toList
  write path content := onFile path fun text => IO.FS.writeBinFile text ⟨content.toArray⟩
  exists? _ := pure false
  run _ _ := pure (.error .notFound)
  environment name := IO.getEnv name
  print text := IO.print text
  warn text := IO.eprint text

end FitScript

/-- Runs the command line. -/
def main (arguments : List String) : IO UInt32 := do
  return UInt32.ofNat (← FitScript.Cli.run FitScript.systemHost arguments)
