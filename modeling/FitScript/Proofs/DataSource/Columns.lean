import FitScript.DataSource
import FitScript.Proofs.Formula.Reading

/-!
# Columns of data files

What a header is looked up for, and what R looks up when it fits the formula.

* `Validation.slope_mem`, `Validation.factor_mem`: slopes and the parts of interactions are
  independent variables, and `Validation.notMem_interactionNames`: these are no interactions.
* `Model.Found`: the names of a formula that a header has to have.
* `Model.missingColumns_eq_nil_iff`: nothing is missing iff all of them are found.
* `Model.missingColumns_interaction`: the name of an interaction is not looked for.
-/

namespace FitScript

variable {d : Description} {c : Convention} {model : Model}

namespace Validation

theorem map_name_independents (h : Model.ofDescription d c = .ok model) :
    model.independents.map (·.name) = d.predictors := by
  rw [(ofDescription_eq_ok_iff.mp h).2.independents, names_map_toVariable]

/-- A slope is an independent variable. -/
theorem slope_mem (h : Model.ofDescription d c = .ok model) {effect : RandomEffect}
    (heffect : effect ∈ model.randomEffects) {slope : String} (hslope : slope ∈ effect.slopes) :
    slope ∈ model.independents.map (·.name) := by
  obtain ⟨hvalid, hrepresents⟩ := ofDescription_eq_ok_iff.mp h
  rw [hrepresents.randomEffects] at heffect
  obtain ⟨entry, hentry, rfl⟩ := List.mem_map.mp heffect
  rw [map_name_independents h]
  exact (hvalid.random entry hentry).declared slope hslope

/-- What an interaction combines are independent variables. -/
theorem factor_mem (h : Model.ofDescription d c = .ok model) {term : Interaction}
    (hterm : term ∈ model.interactions) {name : String} (hname : name ∈ term.factors) :
    name ∈ model.independents.map (·.name) := by
  obtain ⟨hvalid, hrepresents⟩ := ofDescription_eq_ok_iff.mp h
  rw [hrepresents.interactions] at hterm
  obtain ⟨factors, hfactors, rfl⟩ := List.mem_map.mp hterm
  rw [map_name_independents h]
  exact (hvalid.interactions factors hfactors).declared name hname

/-- No interaction has the name of a variable. -/
theorem notMem_interactionNames_of_mem_names (h : Model.ofDescription d c = .ok model)
    {name : String} (hname : name ∈ d.names) : name ∉ model.interactionNames := by
  obtain ⟨hvalid, hrepresents⟩ := ofDescription_eq_ok_iff.mp h
  rw [Model.interactionNames, hrepresents.interactions, hrepresents.convention, List.map_map]
  intro hmem
  obtain ⟨factors, hfactors, rfl⟩ := List.mem_map.mp hmem
  exact (hvalid.interactions factors hfactors).fresh hname

/-- No interaction has the name of an independent variable. -/
theorem notMem_interactionNames (h : Model.ofDescription d c = .ok model) {name : String}
    (hname : name ∈ model.independents.map (·.name)) : name ∉ model.interactionNames := by
  rw [map_name_independents h] at hname
  refine notMem_interactionNames_of_mem_names h ?_
  rw [Description.names, Description.entries, List.map_append]
  exact List.mem_append_right _ hname

end Validation

namespace Model

/-- A header has what a formula mentions: its variables, but not the names of its interactions,
    of which it has the parts. -/
structure Found (model : Model) (columns : List String) : Prop where
  dependent : model.dependent.name ∈ columns
  terms : ∀ term ∈ model.terms, Formula.isRandom term = false → term ∉ model.interactionNames →
    term ∈ columns
  factors : ∀ term ∈ model.interactions, ∀ name ∈ term.factors, name ∈ columns
  slopes : ∀ effect ∈ model.randomEffects, ∀ slope ∈ effect.slopes, slope ∈ columns
  groups : ∀ effect ∈ model.randomEffects, effect.group ∈ columns

theorem missingColumns_eq_nil {columns : List String} :
    model.missingColumns columns = [] ↔ model.dependent.name ∈ columns ∧
      (∀ name ∈ model.independents.map (·.name), name ∈ columns) ∧
      ∀ effect ∈ model.randomEffects, effect.group ∈ columns := by
  rw [missingColumns, List.filter_eq_nil_iff, Model.columns]
  simp only [decide_not, Bool.not_eq_true', decide_eq_false_iff_not, not_not, List.forall_mem_cons,
    List.forall_mem_append, List.forall_mem_map]

/-- **Nothing is missing iff a header has what the formula mentions**, interactions apart. -/
theorem missingColumns_eq_nil_iff (h : Model.ofDescription d c = .ok model)
    (columns : List String) : model.missingColumns columns = [] ↔ model.Found columns := by
  have hterms := (Formula.filter_isRandom_terms (Validation.wellNamed_of_ofDescription h)).1
  have hplain (term : String) : term ∈ model.terms ∧ Formula.isRandom term = false ↔
      term ∈ model.independents.map (·.name) ∨ term ∈ model.interactionNames := by
    rw [← List.mem_append, ← hterms, List.mem_filter, Bool.not_eq_true']
  rw [missingColumns_eq_nil]
  constructor
  · rintro ⟨hdependent, hindependents, hgroups⟩
    refine ⟨hdependent, fun term hterm hrandom hname => ?_, fun term hterm name hname => ?_,
      fun effect heffect slope hslope => ?_, hgroups⟩
    · exact hindependents term (((hplain term).mp ⟨hterm, hrandom⟩).resolve_right hname)
    · exact hindependents name (Validation.factor_mem h hterm hname)
    · exact hindependents slope (Validation.slope_mem h heffect hslope)
  · intro hfound
    refine ⟨hfound.dependent, fun name hname => ?_, hfound.groups⟩
    obtain ⟨hterm, hrandom⟩ := (hplain name).mpr (.inl hname)
    exact hfound.terms name hterm hrandom (Validation.notMem_interactionNames h hname)

/-- A mixed model with an interaction, and a header with quotes and blanks. -/
theorem missingColumns_eq_nil_iff_mixed : ∃ model,
    Model.ofDescription Formula.pigWeights .default = .ok model ∧
      Header.columns (Text.Utf8.encode "Pig,\"Time\", Weight ,Diet\r\n1,2,3,4\r\n") =
        .ok ["Pig", "Time", "Weight", "Diet"] ∧
      model.Found ["Pig", "Time", "Weight", "Diet"] := by
  obtain ⟨model, h⟩ : ∃ model, Model.ofDescription Formula.pigWeights .default = .ok model :=
    ⟨_, rfl⟩
  have hmissing : model.missingColumns ["Pig", "Time", "Weight", "Diet"] = [] := by
    cases h
    decide
  exact ⟨model, h, by decide +kernel, (missingColumns_eq_nil_iff h _).mp hmissing⟩

/-- The name of an interaction stands in the formula and in no header. -/
theorem missingColumns_interaction : ∃ model,
    Model.ofDescription { Description.empty with
      dependent := some (.bare "y"), independent := [.bare "a", .bare "b"],
      interactions := [["a", "b"]], family := some "gaussian" } .default = .ok model ∧
      Header.columns (Text.Utf8.encode "y,a,b\n1,2,3\n") = .ok ["y", "a", "b"] ∧
      model.missingColumns ["y", "a", "b"] = [] ∧ model.formula = "y ~ a+b+a_X_b" ∧
      "a_X_b" ∈ model.terms ∧ Formula.isRandom "a_X_b" = false ∧ "a_X_b" ∉ ["y", "a", "b"] :=
  ⟨_, rfl, by decide +kernel, by decide, by decide, by decide, by decide, by decide⟩

end Model

end FitScript
