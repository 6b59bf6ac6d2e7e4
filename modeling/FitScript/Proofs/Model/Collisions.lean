import FitScript.Proofs.DataSource.Columns

/-!
# Names that a formula uses twice

What validation promises about the names of variables, interactions and groups of one model.

* `Validation.nodup_interactionNames`: interactions differ in their names.
* `Model.interactionName_mem_columns_iff`: the variables and interactions of a validated model all
  have names of their own; a column with the name of an interaction can only be a group.
* `Model.interactionName_groups`: such a group is accepted.
-/

namespace FitScript

namespace Validation

variable {d : Description} {c : Convention} {model : Model}

/-- A model has the names of its description. -/
theorem names_eq (h : Model.ofDescription d c = .ok model) :
    d.names = model.dependent.name :: model.independents.map (·.name) := by
  have hdependent := (ofDescription_eq_ok_iff.mp h).2.dependent
  obtain ⟨y, hy, hvariable⟩ := Option.map_eq_some_iff.mp hdependent
  rw [names_eq_cons hy, map_name_independents h, ← hvariable]
  rfl

/-- Interactions of different variables have different names. -/
theorem nodup_interactionNames (h : Model.ofDescription d c = .ok model) :
    model.interactionNames.Nodup := by
  obtain ⟨hvalid, hrepresents⟩ := ofDescription_eq_ok_iff.mp h
  rw [Model.interactionNames, hrepresents.interactions, hrepresents.convention, List.map_map,
    List.Nodup, List.pairwise_map]
  exact hvalid.apart.imp fun happart => happart.names

/-- All variables and interactions have names of their own. -/
theorem nodup_names_append (h : Model.ofDescription d c = .ok model) :
    (d.names ++ model.interactionNames).Nodup := by
  have hdistinct := (ofDescription_eq_ok_iff.mp h).1.distinct
  refine List.nodup_append.mpr ⟨hdistinct, nodup_interactionNames h, ?_⟩
  rintro name hname _ hmem rfl
  exact notMem_interactionNames_of_mem_names h hname hmem

end Validation

namespace Model

variable {d : Description} {c : Convention} {model : Model}

/-- **One name for one thing, groups apart.** In a validated model the dependent variable, the
    independent variables and the interactions all differ in their names. A column that a model
    refers to has the name of an interaction iff it groups a random effect under that name. -/
theorem interactionName_mem_columns_iff (h : ofDescription d c = .ok model) :
    (model.dependent.name :: (model.independents.map (·.name) ++ model.interactionNames)).Nodup ∧
      ∀ name ∈ model.interactionNames,
        (name ∈ model.columns ↔ ∃ effect ∈ model.randomEffects, effect.group = name) := by
  have hnodup := Validation.nodup_names_append h
  rw [Validation.names_eq h, List.cons_append] at hnodup
  refine ⟨hnodup, ?_⟩
  intro name hname
  have hfresh : name ∉ model.dependent.name :: model.independents.map (·.name) := by
    rw [← Validation.names_eq h]
    intro hmem
    exact Validation.notMem_interactionNames_of_mem_names h hmem hname
  rw [columns, ← List.cons_append, List.mem_append, or_iff_right hfresh, List.mem_map]

/-- Two variables, their interaction and a random effect whose group has its name. -/
def groupedByProduct : Description :=
  { Description.empty with
    dependent := some (.bare "y")
    independent := [.bare "a", .bare "b"]
    interactions := [["a", "b"]]
    random := [⟨"a_X_b", ["a"]⟩]
    family := some "gaussian" }

/-- The one interaction of the model has the name of its group, and of no variable. -/
theorem interactionName_mem_columns_iff_group : ∃ model,
    ofDescription groupedByProduct .default = .ok model ∧ model.interactionNames = ["a_X_b"] ∧
      ["y", "a", "b", "a_X_b"].Nodup ∧ "a_X_b" ∈ model.columns := by
  obtain ⟨model, h⟩ : ∃ model, ofDescription groupedByProduct .default = .ok model := ⟨_, rfl⟩
  obtain ⟨hnodup, hcolumns⟩ := interactionName_mem_columns_iff h
  cases h
  have hgroup := (hcolumns "a_X_b" (by decide)).mpr ⟨_, List.mem_singleton_self _, rfl⟩
  exact ⟨_, rfl, rfl, hnodup, hgroup⟩

/-- A group may have the name of an interaction, which then stands for two things in a formula. -/
theorem interactionName_groups : ∃ model, ofDescription groupedByProduct .default = .ok model ∧
    "a_X_b" ∈ model.interactionNames ∧ "a_X_b" ∈ model.columns ∧
      model.formula = "y ~ a+b+a_X_b+(1+a|a_X_b)" :=
  ⟨_, rfl, by decide, by decide, by decide⟩

end Model

end FitScript
