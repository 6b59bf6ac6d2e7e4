import FitScript.Cli.Arguments
import FitScript.Interpreter
import FitScript.Script

/-!
# Log lines

What a run tells about itself while it works.

* `Event`: one thing worth telling. `Event.line`: its log line.
* `LogFilter`: which events are told. `LogFilter.ofString?`: the filter in an environment variable.
* `sectionEvents`: what is told while a script is made.
-/

namespace FitScript.Cli

/-! ## Levels -/

/-- How much an event matters. -/
inductive Level where
  | error
  | warn
  | info
  | debug
  | trace
deriving DecidableEq

namespace Level

/-- Levels in numbers: the less an event matters, the larger. -/
def rank : Level → Nat
  | error => 1
  | warn => 2
  | info => 3
  | debug => 4
  | trace => 5

/-- The name of a level in log lines. -/
def label : Level → String
  | error => "ERROR"
  | warn => "WARN"
  | info => "INFO"
  | debug => "DEBUG"
  | trace => "TRACE"

/-- Down to which level events are told when `-v` is given a number of times. -/
def ofVerbosity : Nat → Level
  | 0 => warn
  | 1 => debug
  | _ => trace

/-- The largest rank that a filter allows by a name or a number, in upper or lower case. -/
def limitOf? (name : String) : Option Nat :=
  match String.ofList (name.toList.map Char.toLower) with
  | "off" | "0" => some 0
  | "error" | "1" => some error.rank
  | "warn" | "2" => some warn.rank
  | "info" | "3" => some info.rank
  | "debug" | "4" => some debug.rank
  | "trace" | "5" => some trace.rank
  | _ => none

end Level

/-! ## Events -/

/-- One thing worth telling. -/
inductive Event where
  | headerRead (path : FilePath) (columns : List String)
  | columnsMissing (path : FilePath) (columns : List String)
  | nothingToVerify
  | preambleAssembled (packages : List String)
  | loadingAssembled (data : Option FilePath)
  | callAssembled (formula : String) (function : FittingFunction)
  | scriptWritten (path : FilePath)
  | checkStarted (script : FilePath)
  | interpreterFinished (status : Option Nat)
  | scriptParses (script : FilePath)
deriving DecidableEq

namespace Event

/-- How much an event matters. -/
def level : Event → Level
  | columnsMissing _ _ | nothingToVerify => .warn
  | scriptWritten _ | scriptParses _ => .info
  | _ => .debug

/-- The part of the program that tells an event. -/
def target : Event → String
  | columnsMissing _ _ | nothingToVerify | scriptParses _ => "glmscript"
  | headerRead _ _ => "glmscript::data"
  | preambleAssembled _ | loadingAssembled _ | callAssembled _ _ | scriptWritten _ =>
    "glmscript::codegen"
  | checkStarted _ | interpreterFinished _ => "glmscript::runtime"

/-- An optional value in a log line. -/
def showOption : Option String → String
  | none => "None"
  | some text => "Some(" ++ text ++ ")"

/-- The name of a fitting function in a log line. -/
def showFunction : FittingFunction → String
  | .glm => "Glm"
  | .glmer => "Glmer"

/-- The wording of an event. -/
def message : Event → String
  | headerRead path columns =>
    "read data header path=" ++ path.display ++ " columns=" ++ Text.quoteList columns
  | columnsMissing path columns =>
    "data file lacks model variables path=" ++ path.display ++
      " missing=" ++ Text.quoteList columns
  | nothingToVerify => "--verify-data given without a data file"
  | preambleAssembled packages => "assembled preamble packages=" ++ Text.quoteList packages
  | loadingAssembled data =>
    "assembled loading statement data=" ++ showOption (data.map FilePath.quoted)
  | callAssembled formula function =>
    "assembled model call formula=" ++ formula ++ " function=" ++ showFunction function
  | scriptWritten path => "wrote R script path=" ++ path.display
  | checkStarted script => "checking R syntax script=" ++ script.display
  | interpreterFinished status =>
    "Rscript finished status=" ++ showOption (status.map toString)
  | scriptParses script => "script parses script=" ++ script.display

/-- The log line of an event. -/
def line (event : Event) : String :=
  event.level.label ++ " " ++ event.message ++ "\n"

end Event

/-! ## Filters -/

/-- One part of a filter: how far events of some targets are told. -/
structure Directive where
  /-- What the targets begin with. -/
  target : String
  /-- The largest rank that is told. -/
  limit : Nat
deriving DecidableEq

namespace Directive

/-- Whether a directive may begin with a character. Brackets are for spans, of which there are
    none. -/
def begins (c : Char) : Bool :=
  c.isAlphanum || c == '-' || c == ':' || c == '_' || c == '['

/-- A directive is a level for every target, a target of which everything is told, or a target and
    a level. -/
def ofString? (text : String) : Option Directive :=
  if !text.toList.head?.any begins then none
  else
    match splitOption text with
    | (_, none) =>
      match Level.limitOf? text with
      | some limit => some ⟨"", limit⟩
      | none => some ⟨text, Level.trace.rank⟩
    | (target, some "") => some ⟨target, Level.trace.rank⟩
    | (target, some level) => (Level.limitOf? level).map (⟨target, ·⟩)

/-- Whether a directive speaks of a target. -/
def fits (directive : Directive) (target : String) : Bool :=
  directive.target.toList.isPrefixOf target.toList

end Directive

/-- Which events are told, in directives. -/
abbrev LogFilter := List Directive

namespace LogFilter

/-- Events of all targets are told down to a level. -/
def ofLevel (level : Level) : LogFilter :=
  [⟨"", level.rank⟩]

/-- The filter in an environment variable: directives between commas. Without any of them errors
    are told; with a part that is no directive there is no filter. -/
def ofString? (text : String) : Option LogFilter := do
  let parts := (Text.separate ',' text.toList).filter (· ≠ [])
  let directives ← parts.mapM fun part => Directive.ofString? (String.ofList part)
  pure (if directives = [] then ofLevel .error else directives)

/-- The directive that decides about a target: of those that speak of it the one that says most of
    it, and the last of several. -/
def decisive? (filter : LogFilter) (target : String) : Option Directive :=
  filter.foldl (fun best directive =>
    if directive.fits target && best.all (·.target.length ≤ directive.target.length) then
      some directive
    else best) none

/-- Whether an event is told. -/
def tells (filter : LogFilter) (event : Event) : Bool :=
  (filter.decisive? event.target).any (event.level.rank ≤ ·.limit)

/-- A level alone decides by the rank of an event, whatever its target. -/
theorem tells_ofLevel (level : Level) (event : Event) :
    (ofLevel level).tells event = decide (event.level.rank ≤ level.rank) :=
  rfl

/-- What is said of one part of the program goes before what is said of all. -/
example : ((ofString? "warn,glmscript::codegen=debug").map fun filter =>
    (filter.tells (.preambleAssembled []), filter.tells (.interpreterFinished none))) =
      some (true, false) := by
  decide +kernel

end LogFilter

/-! ## Sections -/

/-- The events of making a script: each section tells when it is complete. -/
def sectionEvents (generator : Generator) : List Event :=
  let preamble := Event.preambleAssembled generator.packages
  let loading := Event.loadingAssembled (generator.data.map (·.path))
  let modeling := Event.callAssembled generator.model.formula generator.fittingFunction
  match generator.preamble, generator.loading, generator.modeling with
  | .error _, _, _ => []
  | .ok _, .error _, _ => [preamble]
  | .ok _, .ok _, .error _ => [preamble, loading]
  | .ok _, .ok _, .ok _ => [preamble, loading, modeling]

end FitScript.Cli
