import FitScript.Proofs.Script.Sections
import FitScript.Proofs.Validation.Presence

/-!
# Ids and levels as metadata

The id of a description and the levels of its variables shape no script. Everything that is
generated from a model comes from what is left of it without them.

* `Description.bare`, `Model.bare`, `Generator.bare`: what is left.
* `formula_bare`, `results_bare`: it has the same formula and the same texts.
* `Valid.bare`, `ofDescription_bare`: it is accepted, and has the model that is left.
* `present_bare`: a violation that is not about levels is left, too.
* `results_eq_of_bare_eq`: two descriptions that agree without ids and levels.
-/

namespace FitScript

open Outcome

/-! ## Without ids and levels -/

/-- A description without its id, with bare names for its variables. -/
def Description.bare (d : Description) : Description :=
  { d with
    id := none
    dependent := d.dependent.map fun entry => .bare entry.name
    independent := d.independent.map fun entry => .bare entry.name }

/-- A variable without levels. -/
def Variable.bare (v : Variable) : Variable :=
  { v with levels := none }

/-- A model without its id and the levels of its variables. -/
def Model.bare (model : Model) : Model :=
  { model with
    id := none
    dependent := model.dependent.bare
    independents := model.independents.map Variable.bare }

/-! ## Texts -/

namespace Model

variable (model : Model)

theorem terms_bare : model.bare.terms = model.terms := by
  have hnames : model.bare.independents.map (·.name) = model.independents.map (·.name) := by
    rw [bare, List.map_map]
    rfl
  rw [terms, hnames]
  rfl

theorem formula_bare : model.bare.formula = model.formula := by
  rw [formula, rightHandSide, terms_bare]
  rfl

end Model

namespace Generator

/-- Everything that a generator can be asked for, each of which may fail on its own. -/
structure Results where
  packages : List String
  preamble : Except LookupError String
  loading : Except LookupError String
  modeling : Except LookupError String
  script : Except LookupError String

/-- What a generator answers to everything that it can be asked for. -/
def results (g : Generator) : Results :=
  ⟨g.packages, g.preamble, g.loading, g.modeling, g.script⟩

/-- A generator for the model without its id and levels. -/
def bare (g : Generator) : Generator :=
  { g with model := g.model.bare }

theorem modeling_bare (g : Generator) : g.bare.modeling = g.modeling := by
  unfold modeling
  show (g.templates.fragment "modeling" g.fittingFunction.name >>= fun call =>
    pure
      (Template.render call [("model", _), ("formula", g.model.bare.formula), _, _, _] ++ "\n")) = _
  rw [Model.formula_bare]
  rfl

theorem results_bare (g : Generator) : g.bare.results = g.results := by
  have hmodeling := modeling_bare g
  have hsections : g.bare.sections = g.sections := by
    unfold sections
    rw [hmodeling]
    rfl
  unfold results script
  rw [hmodeling, hsections]
  rfl

/-- The generator of a model, a data file if one is given, some templates and some options. -/
def configured (model : Model) (data : Option FilePath) (templates : TemplateTable)
    (options : ScriptOptions) : Except Failure Generator := do
  let g ← (ofModelAndData model data).mapError .violation
  let g ← (g.withOptions options).mapError .options
  pure (g.withTemplates templates)

theorem configured_bare (model : Model) (data : Option FilePath) (templates : TemplateTable)
    (options : ScriptOptions) : configured model.bare data templates options =
      (configured model data templates options).map bare := by
  have hdata : ofModelAndData model.bare data = (ofModelAndData model data).map bare := by
    cases data with
    | none => rfl
    | some path =>
      rw [ofModelAndData, ofModelAndData]
      cases DataSource.ofPath path <;> rfl
  unfold configured
  rw [hdata]
  cases ofModelAndData model data with
  | error v => rfl
  | ok g =>
    show (g.bare.withOptions options).mapError _ >>= _ =
      Except.map bare ((g.withOptions options).mapError _ >>= _)
    rw [withOptions, withOptions]
    cases options.check <;> rfl

theorem map_results_configured_bare (model : Model) (data : Option FilePath)
    (templates : TemplateTable) (options : ScriptOptions) :
    (configured model.bare data templates options).map results =
      (configured model data templates options).map results := by
  rw [configured_bare]
  cases configured model data templates options with
  | error failure => rfl
  | ok g => exact congrArg Except.ok (results_bare g)

end Generator

/-! ## Validation -/

namespace Description

variable (d : Description)

theorem predictors_bare : d.bare.predictors = d.predictors := by
  rw [predictors, bare, List.map_map]
  rfl

theorem entries_bare : d.bare.entries = d.entries.map fun entry => .bare entry.name := by
  rw [entries, entries, List.map_append, bare]
  cases d.dependent <;> rfl

theorem names_bare : d.bare.names = d.names := by
  rw [names, entries_bare, List.map_map]
  rfl

theorem namesIn_bare (field : String) : d.bare.namesIn field = d.namesIn field := by
  unfold namesIn
  split
  · rw [bare]
    cases d.dependent <;> rfl
  · exact predictors_bare d
  · rfl
  · rfl

end Description

namespace Validation

variable {d : Description} {c : Convention} {model : Model}

/-- What is left of a valid description is valid. -/
theorem valid_bare (h : d.Valid c) : d.bare.Valid c where
  separator := h.separator
  joiner := h.joiner
  dependent := by simpa [Description.bare] using h.dependent
  independent := by simpa [Description.bare] using h.independent
  entries := by
    rw [Description.entries_bare, List.forall_mem_map]
    intro entry hentry
    exact ⟨(h.entries entry hentry).syntactic, by simp [VariableEntry.levels]⟩
  distinct := by
    rw [Description.names_bare]
    exact h.distinct
  interactions := by
    intro term hterm
    obtain ⟨htwo, hnodup, hdeclared, hfresh⟩ := h.interactions term hterm
    rw [← Description.predictors_bare] at hdeclared
    rw [← Description.names_bare] at hfresh
    exact ⟨htwo, hnodup, hdeclared, hfresh⟩
  apart := h.apart
  random := by
    intro entry hentry
    obtain ⟨hsyntactic, hdependent, hdeclared⟩ := h.random entry hentry
    rw [← Description.predictors_bare] at hdeclared
    refine ⟨hsyntactic, ?_, hdeclared⟩
    intro y hy
    obtain ⟨y', hy', rfl⟩ := Option.map_eq_some_iff.mp hy
    exact hdependent y' hy'
  groups := h.groups
  fit := by
    obtain ⟨family, link, hfits⟩ := h.fit
    exact ⟨family, link, hfits.named, hfits.linked, hfits.supported, hfits.likelihood⟩

/-- What is left of a model represents what is left of its description. -/
theorem represents_bare (h : model.Represents d c) : model.bare.Represents d.bare c where
  id := rfl
  dependent := by
    obtain ⟨y, hy, hvariable⟩ := Option.map_eq_some_iff.mp h.dependent
    simp [Description.bare, Model.bare, Variable.bare, hy, ← hvariable, VariableEntry.toVariable,
      VariableEntry.name, VariableEntry.levels]
  independents := by
    simp only [Model.bare, Description.bare, h.independents, List.map_map]
    rfl
  interactions := h.interactions
  randomEffects := h.randomEffects
  fit := ⟨h.fit.named, h.fit.linked, h.fit.supported, h.fit.likelihood⟩
  convention := h.convention

/-- **What is left of an accepted description is accepted**, and its model is what is left. -/
theorem ofDescription_bare (h : Model.ofDescription d c = .ok model) :
    Model.ofDescription d.bare c = .ok model.bare := by
  obtain ⟨hvalid, hrepresents⟩ := ofDescription_eq_ok_iff.mp h
  exact ofDescription_eq_ok_iff.mpr ⟨valid_bare hvalid, represents_bare hrepresents⟩

/-- A violation that is not about levels is left. -/
theorem present_bare {v : Violation} (h : v.Present d c) : v.Present d.bare c ∨
    (∃ name, v = .emptyLevels name) ∨ ∃ name level, v = .duplicateLevel name level := by
  cases v with
  | emptyLevels name => exact .inr (.inl ⟨name, rfl⟩)
  | duplicateLevel name level => exact .inr (.inr ⟨name, level, rfl⟩)
  | missingDependent =>
    left
    show d.bare.dependent = none
    rw [Description.bare, show d.dependent = none from h]
    rfl
  | noIndependentVariables =>
    left
    show d.bare.independent = []
    rw [Description.bare, show d.independent = [] from h]
    rfl
  | invalidName field name =>
    left
    rw [Violation.Present, Description.namesIn_bare]
    exact h
  | duplicateVariable name =>
    left
    rw [Violation.Present, Description.names_bare]
    exact h
  | undeclaredInteractionVariable name term =>
    left
    rw [Violation.Present, Description.predictors_bare]
    exact h
  | termCollision name =>
    left
    rw [Violation.Present, Description.names_bare]
    exact h
  | groupIsDependent group =>
    left
    rw [Violation.Present, Description.namesIn_bare, Description.namesIn_bare]
    exact h
  | undeclaredSlope group name =>
    left
    rw [Violation.Present, Description.predictors_bare]
    exact h
  | _ => exact .inl h

/-- Violations of a description, when what is left of it is accepted. -/
theorem levels_of_present {v : Violation} (h : v.Present d c) (hvalid : d.bare.Valid c) :
    (∃ name, v = .emptyLevels name ∧ d.HasLevels name []) ∨
      ∃ name level levels, v = .duplicateLevel name level ∧ d.HasLevels name levels ∧
        2 ≤ levels.count level := by
  rcases present_bare h with hbare | ⟨name, rfl⟩ | ⟨name, level, rfl⟩
  · exact absurd hbare (not_present_of_valid hvalid)
  · exact .inl ⟨name, rfl, h⟩
  · obtain ⟨levels, hlevels, hcount⟩ := h
    exact .inr ⟨name, level, levels, rfl, hlevels, hcount⟩

end Validation

namespace Generator

/-- **Ids and levels are metadata.** Two descriptions that agree without ids and levels, and that are
    both accepted, have the same formula and the same texts for every data file, all templates and
    all options. If one of them is accepted, the other one can only be rejected for levels that are
    empty or repeated. -/
theorem results_eq_of_bare_eq {d d' : Description} {c : Convention} {model : Model}
    (hbare : d.bare = d'.bare) (h : Model.ofDescription d c = .ok model) :
    (∀ model', Model.ofDescription d' c = .ok model' →
      model.formula = model'.formula ∧ model.terms = model'.terms ∧
        ∀ data templates options,
          (configured model data templates options).map results =
            (configured model' data templates options).map results) ∧
    ∀ v, Model.ofDescription d' c = .error v →
      (∃ name, v = .emptyLevels name ∧ d'.HasLevels name []) ∨
        ∃ name level levels, v = .duplicateLevel name level ∧ d'.HasLevels name levels ∧
          2 ≤ levels.count level := by
  have hleft := Validation.ofDescription_bare h
  rw [hbare] at hleft
  constructor
  · intro model' h'
    have hsame : model.bare = model'.bare :=
      Except.ok.inj (hleft.symm.trans (Validation.ofDescription_bare h'))
    refine ⟨?_, ?_, fun data templates options => ?_⟩
    · rw [← Model.formula_bare model, hsame, Model.formula_bare]
    · rw [← Model.terms_bare model, hsame, Model.terms_bare]
    · rw [← map_results_configured_bare model, hsame, map_results_configured_bare]
  · intro v hv
    obtain ⟨k, hk⟩ := Validation.ofDescription_eq_error_iff.mp hv
    exact Validation.levels_of_present hk.present (Validation.ofDescription_eq_ok_iff.mp hleft).1

/-- A description with an id, and with levels for one of its variables. -/
def withLevels (levels : List String) : Description :=
  { Description.empty with
    id := some "trial"
    dependent := some (.detailed "y" none)
    independent := [.detailed "dose" (some levels), .bare "age"]
    interactions := [["dose", "age"]]
    family := some "gaussian" }

/-- The same description with neither. -/
def withoutLevels : Description :=
  { withLevels [] with
    id := none
    dependent := some (.bare "y")
    independent := [.bare "dose", .detailed "age" none] }

/-- With levels that differ, the description has the texts that it has without them; with a level
    that is repeated, it is rejected for that level. -/
theorem results_eq_of_bare_eq_trial : ∃ model model',
    Model.ofDescription withoutLevels .default = .ok model ∧
      Model.ofDescription (withLevels ["low", "high"]) .default = .ok model' ∧
      model ≠ model' ∧ model.formula = model'.formula ∧
      (∀ data templates options, (configured model data templates options).map results =
        (configured model' data templates options).map results) ∧
      Model.ofDescription (withLevels ["low", "low"]) .default =
        .error (.duplicateLevel "dose" "low") ∧
      ∃ levels, (withLevels ["low", "low"]).HasLevels "dose" levels ∧ 2 ≤ levels.count "low" := by
  have hbare (levels : List String) : withoutLevels.bare = (withLevels levels).bare := rfl
  obtain ⟨model, h⟩ : ∃ model, Model.ofDescription withoutLevels .default = .ok model := ⟨_, rfl⟩
  obtain ⟨model', h'⟩ :
      ∃ model', Model.ofDescription (withLevels ["low", "high"]) .default = .ok model' := ⟨_, rfl⟩
  have hrejected : Model.ofDescription (withLevels ["low", "low"]) .default =
      .error (.duplicateLevel "dose" "low") := rfl
  obtain ⟨hformula, -, hresults⟩ := (results_eq_of_bare_eq (hbare _) h).1 model' h'
  have hlevels : ∃ levels, (withLevels ["low", "low"]).HasLevels "dose" levels ∧
      2 ≤ levels.count "low" := by
    obtain ⟨_, hempty, -⟩ | ⟨_, _, levels, heq, hhas, hcount⟩ :=
      (results_eq_of_bare_eq (hbare _) h).2 _ hrejected
    · cases hempty
    · cases heq
      exact ⟨levels, hhas, hcount⟩
  refine ⟨model, model', h, h', ?_, hformula, hresults, hrejected, hlevels⟩
  cases h
  cases h'
  decide

end Generator

end FitScript
