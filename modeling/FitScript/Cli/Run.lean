import FitScript.Cli.Arguments
import FitScript.Cli.Log
import FitScript.Cli.Report
import FitScript.Description.Json
import FitScript.Model.Validation
import FitScript.Settings.Json

/-!
# Runs of the command line

* `prepare`, `deliver`, `generate`: a description is read, and its script printed or written.
* `checkScript`: has a script parsed.
* `carryOut`: does what a request asks for.
* `run`: carries out what the arguments ask for, and gives the exit status: 0 for success, 1 for a
  failure, 2 for arguments that ask for nothing.
-/

namespace FitScript.Cli

/-- The name and version of the program. -/
def versionText : String :=
  "glmscript 0.1.0\n"

/-- What is told about arguments that ask for nothing. -/
def usageText : String :=
  "usage: glmscript [-v] generate MODEL [--data FILE] [--out DIR] [--config FILE] " ++
    "[--verify-data] [--check]\n" ++
    "       glmscript [-v] check SCRIPT\n"

section

variable {m : Type → Type} [Monad m] (host : Host m) (filter : LogFilter)

/-- Steps of a run, which end at the first failure. -/
abbrev Steps (m : Type → Type) := ExceptT Report m

/-- Tells an event if the filter allows it. -/
def tell (event : Event) : Steps m Unit :=
  if filter.tells event then (host.warn event.line : m Unit) else pure ()

/-- A step that ends the run with a report of what could not be done, unless it has a result. -/
def attempt (summary : String) (step : m (Except Failure α)) : Steps m α :=
  ExceptT.mk do
    match ← step with
    | .ok a => pure (.ok a)
    | .error failure => pure (.error (.because summary failure))

/-- The text of a file. -/
def readText (path : FilePath) : m (Except Failure String) := do
  match ← host.read path with
  | .error e => pure (.error (.file path e))
  | .ok content =>
    match Text.Utf8.decode? content with
    | some text => pure (.ok text)
    | none => pure (.error (.file path .notText))

/-- The value that a text in a file stands for (`from_path`). -/
def readFrom (parse : String → Except Failure α) (path : FilePath) : m (Except Failure α) :=
  return (← readText host path).bind parse

/-- The columns of a data file (`DataSource.columns`). -/
def readColumns (source : DataSource) : m (Except Failure (List String)) := do
  match ← host.read source.path with
  | .error e => pure (.error (.header source.path e.message))
  | .ok content => pure ((Header.columns content).mapError (.header source.path))

/-- Writes a script into a directory, and gives its path (`write_out_file`). -/
def writeScript (generator : Generator) (directory : FilePath) : m (Except Failure FilePath) := do
  let path := generator.scriptPath directory
  match generator.script with
  | .error e => pure (.error (.lookup e))
  | .ok script =>
    match ← host.write path (Text.Utf8.encode script) with
    | .ok () => pure (.ok path)
    | .error e => pure (.error (.file path e))

/-- Has a script parsed (`check_script`). -/
def checkScript (script : FilePath) : Steps m Unit := do
  match ← (Interpreter.find host : m _) with
  | none => throw (.ofFailure .interpreterNotFound)
  | some program =>
    tell host filter (.checkStarted script)
    let answer ← attempt ("checking " ++ script.display)
      (Interpreter.invoke host program (Interpreter.checkArguments script))
    tell host filter (.interpreterFinished answer.status)
    if answer.success then tell host filter (.scriptParses script)
    else throw ⟨script.display ++ " does not parse:\n" ++ Text.trimEnd answer.errors, []⟩

/-- Tells which variables of the model the data file lacks. -/
def verifyData (generator : Generator) : Steps m Unit :=
  match generator.data with
  | none => tell host filter .nothingToVerify
  | some source => do
    let columns ← attempt "reading data header" (readColumns host source)
    tell host filter (.headerRead source.path columns)
    match generator.model.missingColumns columns with
    | [] => pure ()
    | missing => tell host filter (.columnsMissing source.path missing)

/-- The settings in a file, if one is given. -/
def settingsFor : Option FilePath → Steps m Settings
  | none => pure .default
  | some path =>
    attempt ("loading settings from " ++ path.display) (readFrom host Settings.ofJson path)

/-- The generator that is asked for. -/
def generatorFor (generation : Generation) : Steps m Generator := do
  let settings ← settingsFor host generation.config
  let path := generation.model
  let description ← attempt ("reading model description " ++ path.display)
    (readFrom host Description.ofJson path)
  let model ← attempt ("invalid model in " ++ path.display)
    (pure ((Model.ofDescription description settings.formula).mapError .violation))
  let data := generation.data.or description.data
  let generator ← attempt "unsupported data file"
    (pure ((Generator.ofModelAndData model data).mapError .violation))
  attempt "invalid generator settings"
    (pure ((generator.withOptions settings.generator).mapError .options))

/-- What is done before a script is delivered: its generator is made and, if that is asked for, the
    data are verified. -/
def prepare (generation : Generation) : Steps m Generator := do
  let generator ← generatorFor host generation
  (if generation.verifyData then verifyData host filter generator else pure () : Steps m Unit)
  (sectionEvents generator).forM (tell host filter)
  pure generator

/-- Prints the script of a generator, or writes it and has it parsed if that is asked for. -/
def deliver (generation : Generation) (generator : Generator) : Steps m Unit :=
  match generation.out with
  | none => do
    let script ← attempt "generating script" (pure (generator.script.mapError .lookup))
    (host.print script : m Unit)
  | some directory => do
    let path ← attempt ("writing script into " ++ directory.display)
      (writeScript host generator directory)
    tell host filter (.scriptWritten path)
    (host.print (path.display ++ "\n") : m Unit)
    if generation.check then checkScript host filter path

/-- Prints or writes the script that is asked for. -/
def generate (generation : Generation) : Steps m Unit := do
  deliver host filter generation (← prepare host filter generation)

end

section

variable {m : Type → Type} [Monad m] (host : Host m)

/-- The exit status of some steps, after the report of a failure. -/
def finish (steps : Steps m Unit) : m Nat := do
  match ← steps.run with
  | .ok () => pure 0
  | .error report =>
    host.warn report.text
    pure 1

/-- Which events are told (`init_logging`). A filter in the environment goes before the
    arguments. -/
def filterFor (verbosity : Nat) : m LogFilter := do
  match (← host.environment "RUST_LOG").bind LogFilter.ofString? with
  | some filter => pure filter
  | none => pure (.ofLevel (.ofVerbosity verbosity))

/-- Carries out what is asked for. -/
def carryOut : Request → m Nat
  | .version => do
    host.print versionText
    pure 0
  | .generate verbosity generation => do
    finish host (generate host (← filterFor host verbosity) generation)
  | .check verbosity script => do
    finish host (checkScript host (← filterFor host verbosity) script)

/-- Carries out what the arguments ask for. -/
def run (arguments : List String) : m Nat := do
  match Request.ofArguments arguments with
  | none =>
    host.warn usageText
    pure 2
  | some request => carryOut host request

end

end FitScript.Cli
