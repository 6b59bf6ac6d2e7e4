import FitScript.Convention
import FitScript.Failure

/-!
# Settings

Everything that shapes a script but is not part of its model.

* `ScriptOptions`: the names and packages of a script. `ScriptOptions.check`: they must neither
  break the script nor lead it out of its directory.
* `Settings`: these options and a formula convention.
-/

namespace FitScript

/-- The names and packages of a script (`GeneratorConfig`). -/
structure ScriptOptions where
  /-- The variable that the data are bound to. -/
  dataVariable : String
  /-- The variable that the fitted model is bound to. -/
  modelVariable : String
  /-- Stands for a data path that was not given. -/
  placeholder : String
  /-- The name of the written script. -/
  fileName : String
  /-- The packages that every script installs and loads. -/
  basePackages : List String
deriving DecidableEq

namespace ScriptOptions

/-- The options of a script when none is given. -/
def default : ScriptOptions :=
  ⟨"data", "model", "PATH", "model.R", ["tidyverse", "lme4"]⟩

/-- Whether a text names a script that a directory can hold. -/
def isScriptName (name : String) : Bool :=
  let path := FilePath.ofString name
  path.isPlainName && path.extension? == some (FilePath.ofString "R").bytes

/-- Reports the first option that would break the script or lead it out of its directory
    (`GeneratorConfig.validate`). -/
def check (options : ScriptOptions) : Except OptionsError Unit :=
  if !Name.isSyntactic options.dataVariable then
    .error (.invalidVariable "dataVariable" options.dataVariable)
  else if !Name.isSyntactic options.modelVariable then
    .error (.invalidVariable "modelVariable" options.modelVariable)
  else if Text.trim options.placeholder = "" then .error .emptyPlaceholder
  else if !isScriptName options.fileName then .error (.invalidFileName options.fileName)
  else .ok ()

end ScriptOptions

/-- What a settings file holds. -/
structure Settings where
  formula : Convention
  generator : ScriptOptions
deriving DecidableEq

namespace Settings

/-- The settings when none are given. -/
def default : Settings :=
  ⟨.default, .default⟩

/-- Reports the first setting that breaks a rule (`Settings.validate`). -/
def check (settings : Settings) : Except Failure Unit := do
  settings.formula.check.mapError .violation
  settings.generator.check.mapError .options

end Settings

end FitScript
