import FitScript.Text.Quoted

/-!
# Violations

The rules that a model description, a formula convention or a data path can break.

* `Violation`: a broken rule, with the names and terms that break it.
* `Violation.message`: the wording. `Violation.field`: the part of the description at fault.
-/

namespace FitScript

/-- A rule that a description, a convention or a data path breaks (`ValidationError`). -/
inductive Violation where
  | missingDependent
  | noIndependentVariables
  /-- A name that cannot stand unquoted in a formula. -/
  | invalidName (field name : String)
  /-- A name of two variables. -/
  | duplicateVariable (name : String)
  | emptyLevels (name : String)
  | duplicateLevel (name level : String)
  /-- An interaction of fewer than two different variables. -/
  | interactionTooShort (term : List String)
  | undeclaredInteractionVariable (name : String) (term : List String)
  /-- Two interactions of the same variables. -/
  | duplicateInteraction (name : String)
  /-- An interaction with the name of a variable or of another interaction. -/
  | termCollision (name : String)
  | groupIsDependent (group : String)
  | duplicateRandomGroup (group : String)
  | undeclaredSlope (group name : String)
  | quasiFamilyWithRandomEffects (family : String)
  | missingFamily
  | unsupportedFamily (name : String)
  | unsupportedLink (name : String)
  | incompatibleLink (family link : String)
  /-- A separator that would change the fitted model. -/
  | invalidTermSeparator (separator : String)
  /-- A joiner that makes names which cannot stand unquoted in a formula. -/
  | invalidInteractionJoiner (joiner : String)
  /-- A data file of another format than the accepted one. -/
  | unsupportedDataExtension (path : String) (extension : Option String) (expected : String)
  /-- A data path, shown in quotes, that cannot be written into a script. -/
  | dataPathNotText (path : String)
deriving DecidableEq

namespace Violation

/-- The wording of a violation. -/
def message : Violation → String
  | missingDependent => "Model must declare a dependent variable"
  | noIndependentVariables => "Model must declare at least one independent variable"
  | invalidName field name =>
    s!"Invalid variable name '{name}' in {field}: names must be syntactic R identifiers"
  | duplicateVariable name => s!"Duplicate variable name: '{name}'"
  | emptyLevels name => s!"Categorical variable '{name}' declares no levels"
  | duplicateLevel name level => s!"Categorical variable '{name}' repeats level '{level}'"
  | interactionTooShort term =>
    "Interaction term " ++ Text.quoteList term ++ " must combine at least two distinct variables"
  | undeclaredInteractionVariable name term =>
    "Interaction term " ++ Text.quoteList term ++
      s!" references undeclared independent variable '{name}'"
  | duplicateInteraction name => s!"Duplicate interaction term: '{name}'"
  | termCollision name =>
    s!"Interaction term name '{name}' collides with a declared variable or another interaction term"
  | groupIsDependent group => s!"Dependent variable '{group}' cannot group a random effect"
  | duplicateRandomGroup group => s!"Duplicate random effect for group '{group}'"
  | undeclaredSlope group name =>
    s!"Random slope '{name}' for group '{group}' is not a declared independent variable"
  | quasiFamilyWithRandomEffects family =>
    s!"Family '{family}' cannot be used with random effects"
  | missingFamily => "Model must declare a family"
  | unsupportedFamily name => s!"Unsupported family '{name}'"
  | unsupportedLink name => s!"Unsupported link function '{name}'"
  | incompatibleLink family link => s!"Link '{link}' is not available for family '{family}'"
  | invalidTermSeparator separator =>
    s!"Term separator must be '+' (optionally padded with spaces), got '{separator}'"
  | invalidInteractionJoiner joiner =>
    s!"Interaction joiner '{joiner}' does not produce syntactic R names"
  | unsupportedDataExtension path (some extension) expected =>
    s!"Unsupported data file '{path}': expected a .{expected} file, got '.{extension}'"
  | unsupportedDataExtension path none expected =>
    s!"Unsupported data file '{path}': expected a .{expected} file, got no extension"
  | dataPathNotText path => s!"Data file path {path} is not valid UTF-8"

/-- The field of a description that a violation is about (`ValidationError.field`). -/
def field : Violation → String
  | missingDependent => "dependent"
  | noIndependentVariables | duplicateVariable _ => "independent"
  | invalidName field _ => field
  | emptyLevels _ | duplicateLevel _ _ => "levels"
  | interactionTooShort _ | undeclaredInteractionVariable _ _ | duplicateInteraction _
  | termCollision _ => "interactions"
  | groupIsDependent _ | duplicateRandomGroup _ | undeclaredSlope _ _ => "random"
  | missingFamily | unsupportedFamily _ | quasiFamilyWithRandomEffects _ => "family"
  | unsupportedLink _ | incompatibleLink _ _ => "link"
  | invalidTermSeparator _ | invalidInteractionJoiner _ => "formula"
  | unsupportedDataExtension _ _ _ | dataPathNotText _ => "data"

end Violation

end FitScript
