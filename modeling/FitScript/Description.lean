import FitScript.FilePath

/-!
# Model descriptions

A statistical model as a document describes it, before any rule of statistics is applied.

* `Description`: the parts of a model by name.
* `VariableEntry`: a variable, named bare or with details. `RandomEntry`: a random effect.
-/

namespace FitScript

/-- A variable of a description (`VariableSpec`). -/
inductive VariableEntry where
  /-- The name of a column. -/
  | bare (name : String)
  /-- The name of a column and the levels of its categories, if declared. -/
  | detailed (name : String) (levels : Option (List String))
deriving DecidableEq

namespace VariableEntry

/-- The name of a variable. -/
def name : VariableEntry → String
  | bare name => name
  | detailed name _ => name

/-- The declared levels of a variable. -/
def levels : VariableEntry → Option (List String)
  | bare _ => none
  | detailed _ levels => levels

end VariableEntry

/-- A random effect of a description (`RandomEffectSpec`). -/
structure RandomEntry where
  /-- The grouping variable. -/
  group : String
  /-- The variables whose slopes vary by group. -/
  slopes : List String
deriving DecidableEq

/-- A statistical model as described by a document (`ModelDescription`). -/
structure Description where
  /-- The version of the description's form. -/
  schema : String
  id : Option String
  /-- The response. -/
  dependent : Option VariableEntry
  /-- The predictors in the order of the formula. -/
  independent : List VariableEntry
  /-- Each interaction is a list of predictors. -/
  interactions : List (List String)
  random : List RandomEntry
  family : Option String
  /-- The link; if none is given, the family's canonical one. -/
  link : Option String
  /-- The data file that the script should read. -/
  data : Option FilePath
deriving DecidableEq

namespace Description

/-- The versions that are understood (`SUPPORTED_SCHEMA_VERSIONS`). -/
def supportedSchemas : List String :=
  ["1.0"]

/-- A description without any part, of the supported version. -/
def empty : Description :=
  ⟨"1.0", none, none, [], [], [], none, none, none⟩

end Description

end FitScript
