import FitScript.Host
import FitScript.Literal

/-!
# The R interpreter

Handing a script to Rscript, to parse it or to run it.

* `Interpreter.find`: the program to use, if there is one.
* `Interpreter.checkArguments` and `Interpreter.runArguments`: what the program is asked.
* `Interpreter.invoke`: its answer as text.
-/

namespace FitScript.Interpreter

/-- What the interpreter answered (`RunOutcome`). -/
structure Answer where
  status : Option Nat
  output : String
  errors : String
deriving DecidableEq

/-- Whether the interpreter succeeded. -/
def Answer.success (answer : Answer) : Bool :=
  answer.status == some 0

/-- The answer in what a program left behind. -/
def answerOf (outcome : Outcome) : Answer :=
  ⟨outcome.status, Text.Utf8.decodeLossy outcome.output, Text.Utf8.decodeLossy outcome.errors⟩

/-! ## Arguments -/

/-- Arguments as bytes. -/
def arguments (texts : List String) : List (List UInt8) :=
  texts.map Text.Utf8.encode

/-- The arguments that have a script parsed and not run (`check_syntax`). -/
def checkArguments (script : FilePath) : List (List UInt8) :=
  arguments
    ["--vanilla", "-e", "invisible(parse(file = " ++ Literal.write script.display ++ "))"]

/-- The arguments that have a script run (`RRuntime.run`). -/
def runArguments (script : FilePath) : List (List UInt8) :=
  arguments ["--vanilla", script.display]

/-! ## Invocation -/

/-- The name of the program. -/
def programName : FilePath :=
  .ofString "Rscript"

/-- Where the program may stand when nothing else leads to it. -/
def usualPaths : List FilePath :=
  ["/usr/bin/Rscript", "/usr/local/bin/Rscript", "/opt/R/bin/Rscript"].map .ofString

section

variable {m : Type → Type} [Monad m] (host : Host m)

/-- The first path at which anything stands. -/
def firstExisting : List FilePath → m (Option FilePath)
  | [] => pure none
  | path :: rest => do
    if ← host.exists? path then pure (some path) else firstExisting rest

/-- The interpreter (`find_rscript`): the program found by name if it answers when asked for its
    version, else the one below `R_HOME`, else one at a usual place. -/
def find : m (Option FilePath) := do
  match ← host.run programName (arguments ["--version"]) with
  | .ok ⟨some 0, _, _⟩ => pure (some programName)
  | _ =>
    let home ← host.environment "R_HOME"
    let below := home.map fun home =>
      ((FilePath.ofString home).join (.ofString "bin")).join programName
    firstExisting host (below.toList ++ usualPaths)

/-- Runs the interpreter with arguments (`RRuntime.invoke`). -/
def invoke (program : FilePath) (arguments : List (List UInt8)) : m (Except Failure Answer) := do
  match ← host.run program arguments with
  | .ok outcome => pure (.ok (answerOf outcome))
  | .error e => pure (.error (.interpreter program e))

end

end FitScript.Interpreter
