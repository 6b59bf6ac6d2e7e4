import FitScript.Description
import FitScript.Model.Basic

/-!
# Validation

From a description to a model. The rules are checked in the order in which the parts of a model
build on one another, and the first broken rule is reported: the convention, the dependent
variable, the independent variables, the interactions, the random effects, the family and the
link.

* `Model.ofDescription`: the model of a description, or the first violation.
-/

namespace FitScript

namespace Validation

/-! ## Variables -/

/-- The first of some texts that also stands in front of it, or among `earlier`. -/
def firstRepeated? (earlier : List String) : List String → Option String
  | [] => none
  | s :: rest => if s ∈ earlier then some s else firstRepeated? (s :: earlier) rest

theorem firstRepeated?_eq_none_iff {earlier texts : List String} :
    firstRepeated? earlier texts = none ↔ texts.Nodup ∧ ∀ s ∈ texts, s ∉ earlier := by
  induction texts generalizing earlier with
  | nil => simp [firstRepeated?]
  | cons s rest ih =>
    by_cases h : s ∈ earlier
    · simp [firstRepeated?, h]
    · simp only [firstRepeated?, h, if_false, ih, List.nodup_cons, List.mem_cons]
      grind

/-- Declared levels must be there and differ from one another. -/
def checkLevels (name : String) : Option (List String) → Except Violation Unit
  | none => .ok ()
  | some [] => .error (.emptyLevels name)
  | some levels =>
    match firstRepeated? [] levels with
    | some level => .error (.duplicateLevel name level)
    | none => .ok ()

/-- The variable of an entry, which messages place in `field` (`variable_from_spec`). -/
def variableOf (role : Role) (field : String) (entry : VariableEntry) :
    Except Violation Variable :=
  if Name.isSyntactic entry.name then
    (checkLevels entry.name entry.levels).map fun _ => ⟨entry.name, role, entry.levels⟩
  else .error (.invalidName field entry.name)

/-- The dependent variable (`validate_dependent`). -/
def dependentOf : Option VariableEntry → Except Violation Variable
  | none => .error .missingDependent
  | some entry => variableOf .dependent "dependent" entry

/-- The variables of entries whose names differ from one another and from the names `taken`. -/
def declaredAfter (taken : List String) : List VariableEntry → Except Violation (List Variable)
  | [] => .ok []
  | entry :: rest =>
    if entry.name ∈ taken then .error (.duplicateVariable entry.name)
    else do
      let first ← variableOf .independent "independent" entry
      let others ← declaredAfter (entry.name :: taken) rest
      pure (first :: others)

/-- The independent variables of a model with the given dependent variable
    (`validate_independents`). -/
def independentsOf (dependent : String) (entries : List VariableEntry) :
    Except Violation (List Variable) :=
  if entries.isEmpty then .error .noIndependentVariables
  else declaredAfter [dependent] entries

/-! ## Terms -/

/-- What the terms of a model are built from. -/
structure Scope where
  dependent : String
  independents : List String
  joiner : String

/-- An interaction that follows others: two or more different independent variables, which no
    earlier one combines, under a name that no variable and no earlier interaction has. -/
def interactionAfter (scope : Scope) (earlier : List Interaction) (term : List String) :
    Except Violation Interaction :=
  if term.length < 2 ∨ (firstRepeated? [] term).isSome then .error (.interactionTooShort term)
  else
    match term.find? (· ∉ scope.independents) with
    | some name => .error (.undeclaredInteractionVariable name term)
    | none =>
      let interaction : Interaction := ⟨term⟩
      let name := interaction.name scope.joiner
      if name ∈ scope.independents ∨ name = scope.dependent then .error (.termCollision name)
      else if earlier.any (·.factors.isPerm term) then .error (.duplicateInteraction name)
      else if earlier.any (·.name scope.joiner == name) then .error (.termCollision name)
      else .ok interaction

/-- Interactions that follow others (`validate_interactions`). -/
def interactionsAfter (scope : Scope) (earlier : List Interaction) :
    List (List String) → Except Violation (List Interaction)
  | [] => .ok []
  | term :: rest => do
    let first ← interactionAfter scope earlier term
    let others ← interactionsAfter scope (first :: earlier) rest
    pure (first :: others)

/-- A random effect whose group differs from the groups `taken`. -/
def randomEffectAfter (scope : Scope) (taken : List String) (entry : RandomEntry) :
    Except Violation RandomEffect :=
  if !Name.isSyntactic entry.group then .error (.invalidName "random" entry.group)
  else if entry.group = scope.dependent then .error (.groupIsDependent entry.group)
  else if entry.group ∈ taken then .error (.duplicateRandomGroup entry.group)
  else
    match entry.slopes.find? (· ∉ scope.independents) with
    | some name => .error (.undeclaredSlope entry.group name)
    | none => .ok ⟨entry.group, entry.slopes⟩

/-- Random effects whose groups differ from one another and from the groups `taken`
    (`validate_random_effects`). -/
def randomEffectsAfter (scope : Scope) (taken : List String) :
    List RandomEntry → Except Violation (List RandomEffect)
  | [] => .ok []
  | entry :: rest => do
    let first ← randomEffectAfter scope taken entry
    let others ← randomEffectsAfter scope (entry.group :: taken) rest
    pure (first :: others)

/-! ## Family and link -/

/-- The family of a name (`validate_family_link`). -/
def familyOf : Option String → Except Violation Family
  | none => .error .missingFamily
  | some name =>
    match Family.ofName? name with
    | some family => .ok family
    | none => .error (.unsupportedFamily name)

/-- The link of a name, or the canonical one of the family (`validate_family_link`). -/
def linkOf (family : Family) : Option String → Except Violation Link
  | none => .ok family.canonicalLink
  | some name =>
    match Link.ofName? name with
    | some link => .ok link
    | none => .error (.unsupportedLink name)

/-- A link must be available for the family (`validate_family_link`). -/
def checkSupport (family : Family) (link : Link) : Except Violation Unit :=
  if family.supports link then .ok ()
  else .error (.incompatibleLink family.name link.name)

/-- A family without a likelihood takes no random effects (`Validator.validate`). -/
def checkLikelihood (family : Family) (effects : List RandomEffect) : Except Violation Unit :=
  if family.isQuasi ∧ effects ≠ [] then .error (.quasiFamilyWithRandomEffects family.name)
  else .ok ()

end Validation

/-- The model of a description under a convention, or the first rule that they break
    (`StatisticalModel.with_convention`). -/
def Model.ofDescription (d : Description) (convention : Convention) :
    Except Violation Model := do
  convention.check
  let dependent ← Validation.dependentOf d.dependent
  let independents ← Validation.independentsOf dependent.name d.independent
  let scope : Validation.Scope :=
    ⟨dependent.name, independents.map (·.name), convention.interactionJoiner⟩
  let interactions ← Validation.interactionsAfter scope [] d.interactions
  let randomEffects ← Validation.randomEffectsAfter scope [] d.random
  let family ← Validation.familyOf d.family
  let link ← Validation.linkOf family d.link
  Validation.checkSupport family link
  Validation.checkLikelihood family randomEffects
  pure ⟨d.id, dependent, independents, interactions, randomEffects, family, link, convention⟩

end FitScript
