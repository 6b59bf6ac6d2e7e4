import FitScript.Convention
import FitScript.Family

/-!
# Statistical models

A model that R can fit, and its formula.

* `Model`: the variables, terms, family and link of a model, and the convention for its formula.
* `Model.formula`: the dependent variable and the terms of the right-hand side, which are the
  independent variables, then the interactions, then the random effects.
-/

namespace FitScript

/-- The part that a variable plays in a formula. -/
inductive Role where
  /-- Left-hand side of the formula. -/
  | dependent
  /-- Right-hand side of the formula. -/
  | independent
deriving DecidableEq

/-- The name of a role. -/
def Role.name : Role → String
  | dependent => "dependent"
  | independent => "independent"

/-- A named column of the data. -/
structure Variable where
  name : String
  role : Role
  /-- The levels of a categorical variable. -/
  levels : Option (List String)
deriving DecidableEq

/-- Whether a variable is categorical. -/
def Variable.isCategorical (v : Variable) : Bool :=
  v.levels.isSome

/-- The combined effect of independent variables (`InteractionTerm`). -/
structure Interaction where
  factors : List String
deriving DecidableEq

/-- The name of an interaction in a formula (`synthetic_name`). -/
def Interaction.name (term : Interaction) (joiner : String) : String :=
  joiner.intercalate term.factors

/-- An intercept for each group, and slopes that vary by group. -/
structure RandomEffect where
  group : String
  slopes : List String
deriving DecidableEq

/-- The term of a random effect, such as `(1+slope|group)`. -/
def RandomEffect.term (effect : RandomEffect) (separator : String) : String :=
  "(" ++ separator.intercalate ("1" :: effect.slopes) ++ "|" ++ effect.group ++ ")"

/-- A statistical model (`StatisticalModel`). -/
structure Model where
  id : Option String
  dependent : Variable
  independents : List Variable
  interactions : List Interaction
  randomEffects : List RandomEffect
  family : Family
  link : Link
  convention : Convention
deriving DecidableEq

namespace Model

/-- Whether a model has random effects, and needs a fit of mixed effects (`is_mixed`). -/
def isMixed (model : Model) : Bool :=
  !model.randomEffects.isEmpty

/-- The variable declared under a name (`variable`). -/
def declared? (model : Model) (name : String) : Option Variable :=
  (model.dependent :: model.independents).find? (·.name == name)

/-- The names of the interactions (`interaction_names`). -/
def interactionNames (model : Model) : List String :=
  model.interactions.map (·.name model.convention.interactionJoiner)

/-- The terms of the right-hand side (`rhs_terms`). -/
def terms (model : Model) : List String :=
  model.independents.map (·.name) ++ model.interactionNames ++
    model.randomEffects.map (·.term (Text.trim model.convention.termSeparator))

/-- The right-hand side of the formula, such as `AGEP+SCHL` (`formula_rhs`). -/
def rightHandSide (model : Model) : String :=
  model.convention.termSeparator.intercalate model.terms

/-- The formula, such as `PINCP ~ AGEP+SCHL`. -/
def formula (model : Model) : String :=
  model.dependent.name ++ " ~ " ++ model.rightHandSide

end Model

end FitScript
