import FitScript.FilePath

/-!
# Command-line arguments

* `Request`: what the arguments ask for: a script, a check of a script, or the version.
* `Request.ofArguments`: the request of some arguments. An option is given once at most, except
  for `-v`, which may be repeated and stands anywhere; values must not be empty.
-/

namespace FitScript.Cli

/-- What is asked of the command `generate`. -/
structure Generation where
  /-- The model description. -/
  model : FilePath
  /-- The data file, in place of the description's. -/
  data : Option FilePath
  /-- The directory of the script; without one, the script is printed. -/
  out : Option FilePath
  /-- The settings. -/
  config : Option FilePath
  /-- Whether to look for the model's variables in the data file. -/
  verifyData : Bool
  /-- Whether to have the written script parsed. -/
  check : Bool
deriving DecidableEq

/-- What the arguments ask for; `verbosity` counts how often more log lines are asked for
    (`Command`). -/
inductive Request where
  | version
  | generate (verbosity : Nat) (generation : Generation)
  | check (verbosity : Nat) (script : FilePath)
deriving DecidableEq

/-! ## Scanning -/

/-- The options of `generate` with a value. -/
inductive ValueOption where
  | data
  | out
  | config
deriving DecidableEq

/-- The options of `generate` without a value. -/
inductive Flag where
  | verifyData
  | check
deriving DecidableEq

/-- What has been given so far. -/
structure Given where
  verbosity : Nat
  values : List (ValueOption × String)
  flags : List Flag
  positionals : List String

/-- An argument that starts an option with a value: its name, and the value after an equals
    sign. -/
def splitOption (argument : String) : String × Option String :=
  match argument.toList.span (· ≠ '=') with
  | (_, []) => (argument, none)
  | (name, _ :: value) => (String.ofList name, some (String.ofList value))

/-- The option with a value of a name. -/
def valueOption? : String → Option ValueOption
  | "--data" => some .data
  | "--out" => some .out
  | "--config" => some .config
  | _ => none

/-- The option without a value of a name. -/
def flag? : String → Option Flag
  | "--verify-data" => some .verifyData
  | "--check" => some .check
  | _ => none

/-- How often `-v` is given by an argument such as `-vv` or `--verbose`. -/
def verbosity? (argument : String) : Option Nat :=
  if argument = "--verbose" then some 1
  else
    match argument.toList with
    | '-' :: rest => if rest ≠ [] ∧ rest.all (· == 'v') then some rest.length else none
    | _ => none

/-- Whether an argument looks like an option. A single dash does not. -/
def looksLikeOption (argument : String) : Bool :=
  argument.toList.head? == some '-' && argument != "-"

/-- Reads the arguments of a command. `generates` tells whether it has the options of
    `generate`. -/
def scan (generates : Bool) (given : Given) : List String → Option Given
  | [] => some given
  | "--" :: rest => some { given with positionals := given.positionals ++ rest }
  | argument :: rest =>
    if !looksLikeOption argument then
      scan generates { given with positionals := given.positionals ++ [argument] } rest
    else
      match verbosity? argument, generates with
      | some count, _ => scan generates { given with verbosity := given.verbosity + count } rest
      | none, false => none
      | none, true =>
        match flag? argument with
        | some flag =>
          if flag ∈ given.flags then none
          else scan generates { given with flags := flag :: given.flags } rest
        | none =>
          let (name, attached) := splitOption argument
          match valueOption? name with
          | none => none
          | some option =>
            if (given.values.lookup option).isSome then none
            else
              match attached with
              | some value =>
                scan generates { given with values := (option, value) :: given.values } rest
              | none =>
                match rest with
                | [] => none
                | value :: rest =>
                  if looksLikeOption value then none
                  else scan generates { given with values := (option, value) :: given.values } rest

/-! ## Requests -/

/-- A path in an argument, which must not be empty. -/
def path? (argument : String) : Option FilePath :=
  if argument = "" then none else some (.ofString argument)

/-- The path given for an option, if it is given. -/
def Given.path? (given : Given) (option : ValueOption) : Option (Option FilePath) :=
  match given.values.lookup option with
  | none => some none
  | some value => (Cli.path? value).map some

/-- The request for a script. Checking it needs a directory to write it into. -/
def generateRequest (given : Given) : Option Request := do
  let [model] := given.positionals | none
  let model ← path? model
  let data ← given.path? .data
  let out ← given.path? .out
  let config ← given.path? .config
  let check := given.flags.contains .check
  if check && out.isNone then none
  else
    let verifyData := given.flags.contains .verifyData
    pure (.generate given.verbosity ⟨model, data, out, config, verifyData, check⟩)

/-- The request for a check. -/
def checkRequest (given : Given) : Option Request := do
  let [script] := given.positionals | none
  let script ← path? script
  pure (.check given.verbosity script)

/-- Whether an argument asks for the version, as `--version`, `-V` and `-vV` do. -/
def asksVersion (argument : String) : Bool :=
  argument == "--version" ||
    match argument.toList with
    | '-' :: rest => (rest.dropWhile (· == 'v')).head? == some 'V'
    | _ => false

/-- The request of arguments ahead of which `-v` was given `verbosity` times. -/
def requestAfter (verbosity : Nat) : List String → Option Request
  | [] => none
  | argument :: rest =>
    if argument = "generate" then (scan true ⟨verbosity, [], [], []⟩ rest).bind generateRequest
    else if argument = "check" then (scan false ⟨verbosity, [], [], []⟩ rest).bind checkRequest
    else if asksVersion argument then some .version
    else
      match verbosity? argument with
      | some count => requestAfter (verbosity + count) rest
      | none => none

/-- The request of the arguments, if they make one. -/
def Request.ofArguments (arguments : List String) : Option Request :=
  requestAfter 0 arguments

end FitScript.Cli
