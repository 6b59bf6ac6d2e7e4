import FitScript.Proofs.Formula.Words
import FitScript.Proofs.Model.Collisions
import Mathlib.Data.List.Nodup

/-!
# Terms and names of validated models

* `nodup_terms`: the terms of a formula differ, whatever kinds they are of.
* `dependent_notMem_words`: the dependent variable is not mentioned on the right-hand side.
* `declared?_eq_some_iff`: a name leads to the variable that is declared under it.
* `Model.TermsApart`, `Model.ResponseApart`, `Model.Resolves`: what this says of a formula, of its
  response and of the names in it.
* `Model.inOrder_of_ofDescription`: all of it holds of every validated model.
-/

namespace FitScript

/-- A description declares a variable, in the role that its place gives it. -/
def Description.Declares (d : Description) (v : Variable) : Prop :=
  (∃ entry, d.dependent = some entry ∧ v = entry.toVariable .dependent) ∨
    ∃ entry ∈ d.independent, v = entry.toVariable .independent

namespace Validation

variable {d : Description} {c : Convention} {model : Model}

/-! ## Terms -/

/-- Random effects have different groups. -/
theorem nodup_groups (h : Model.ofDescription d c = .ok model) :
    (model.randomEffects.map (·.group)).Nodup := by
  obtain ⟨hvalid, hrepresents⟩ := ofDescription_eq_ok_iff.mp h
  rw [hrepresents.randomEffects, List.map_map]
  exact hvalid.groups

/-- Random effects of different groups have different terms. -/
theorem nodup_randomTerms (h : Model.ofDescription d c = .ok model) :
    (model.randomEffects.map (·.term "+")).Nodup := by
  have hwell := (wellNamed_of_ofDescription h).randomEffects
  refine List.Nodup.map_on ?_ (List.Nodup.of_map _ (nodup_groups h))
  intro e he e' he' hterm
  -- both are read back from the one term
  have hread := Formula.randomEffect?_term (hwell e he).1 (hwell e he).2
  rw [hterm, Formula.randomEffect?_term (hwell e' he').1 (hwell e' he').2] at hread
  exact (Option.some.inj hread).symm

/-- The names among the terms of a formula, none of which is the dependent variable. -/
theorem nodup_cons_names (h : Model.ofDescription d c = .ok model) :
    (model.dependent.name ::
      (model.independents.map (·.name) ++ model.interactionNames)).Nodup := by
  have hnodup := nodup_names_append h
  rwa [names_eq h, List.cons_append] at hnodup

/-- A name is no term of a random effect. -/
theorem notMem_randomTerms {name : String} (hname : ∀ c ∈ name.toList, Name.isNameChar c)
    (effects : List RandomEffect) : name ∉ effects.map (·.term "+") := by
  intro hmem
  obtain ⟨e, -, rfl⟩ := List.mem_map.mp hmem
  have hrandom := Formula.isRandom_term e
  rw [Formula.isRandom_of_isNameChar hname] at hrandom
  cases hrandom

/-- **The terms of a formula differ**, whatever kinds they are of. -/
theorem nodup_terms (h : Model.ofDescription d c = .ok model) : model.terms.Nodup := by
  have hn := wellNamed_of_ofDescription h
  rw [Formula.terms_eq hn]
  refine List.nodup_append.mpr
    ⟨(List.nodup_cons.mp (nodup_cons_names h)).2, nodup_randomTerms h, ?_⟩
  rintro name hname _ hmem rfl
  exact notMem_randomTerms (Formula.isNameChar_of_mem_variables hn hname).2 _ hmem

/-! ## The dependent variable -/

theorem dependent_notMem_names (h : Model.ofDescription d c = .ok model) :
    model.dependent.name ∉ model.independents.map (·.name) ++ model.interactionNames :=
  (List.nodup_cons.mp (nodup_cons_names h)).1

theorem dependent_notMem_terms (h : Model.ofDescription d c = .ok model) :
    model.dependent.name ∉ model.terms := by
  have hn := wellNamed_of_ofDescription h
  rw [Formula.terms_eq hn, List.mem_append, not_or]
  exact ⟨dependent_notMem_names h,
    notMem_randomTerms (Name.isNameChar_of_isSyntactic hn.dependent) _⟩

theorem group_ne_dependent (h : Model.ofDescription d c = .ok model) {effect : RandomEffect}
    (heffect : effect ∈ model.randomEffects) : effect.group ≠ model.dependent.name := by
  obtain ⟨hvalid, hrepresents⟩ := ofDescription_eq_ok_iff.mp h
  obtain ⟨y, hy, hvariable⟩ := Option.map_eq_some_iff.mp hrepresents.dependent
  rw [hrepresents.randomEffects] at heffect
  obtain ⟨entry, hentry, rfl⟩ := List.mem_map.mp heffect
  rw [← hvariable]
  exact (hvalid.random entry hentry).not_dependent y hy

theorem dependent_notMem_slopes (h : Model.ofDescription d c = .ok model) {effect : RandomEffect}
    (heffect : effect ∈ model.randomEffects) : model.dependent.name ∉ effect.slopes := by
  intro hslope
  exact dependent_notMem_names h (List.mem_append_left _ (slope_mem h heffect hslope))

/-- **The dependent variable is not mentioned on the right-hand side.** -/
theorem dependent_notMem_words (h : Model.ofDescription d c = .ok model) :
    model.dependent.name ∉ Formula.words model.rightHandSide := by
  have hn := wellNamed_of_ofDescription h
  have hone : model.dependent.name ≠ "1" := by
    intro hdependent
    exact absurd (hdependent ▸ hn.dependent) (by decide)
  rw [Formula.words_rightHandSide hn, List.mem_append, not_or, List.mem_flatMap]
  refine ⟨dependent_notMem_names h, ?_⟩
  rintro ⟨effect, heffect, hmem⟩
  rw [Formula.parts, List.mem_cons, List.mem_append, List.mem_singleton] at hmem
  rcases hmem with hmem | hmem | hmem
  · exact hone hmem
  · exact dependent_notMem_slopes h heffect hmem
  · exact group_ne_dependent h heffect hmem.symm

/-! ## Declared variables -/

/-- The variables of a model are those that its description declares. -/
theorem declares_iff (h : Model.ofDescription d c = .ok model) {v : Variable} :
    d.Declares v ↔ v ∈ model.dependent :: model.independents := by
  have hrepresents := (ofDescription_eq_ok_iff.mp h).2
  obtain ⟨y, hy, hvariable⟩ := Option.map_eq_some_iff.mp hrepresents.dependent
  rw [Description.Declares, List.mem_cons, ← hvariable, hrepresents.independents, List.mem_map]
  refine or_congr ?_ (exists_congr fun entry => and_congr_right fun _ => eq_comm)
  simp [hy]

/-- A name leads to the variable that is declared under it. -/
theorem declared?_eq_some_iff (h : Model.ofDescription d c = .ok model) {name : String}
    {v : Variable} : model.declared? name = some v ↔ d.Declares v ∧ v.name = name := by
  rw [declares_iff h, Model.declared?]
  constructor
  · intro hfound
    exact ⟨List.mem_of_find?_eq_some hfound, by simpa using List.find?_some hfound⟩
  · rintro ⟨hmem, rfl⟩
    have hnames : ((model.dependent :: model.independents).map (·.name)).Nodup := by
      rw [List.map_cons, ← names_eq h]
      exact (ofDescription_eq_ok_iff.mp h).1.distinct
    -- some variable of that name is found, and there is no other one
    have hsome : ((model.dependent :: model.independents).find? (·.name == v.name)).isSome :=
      List.find?_isSome.mpr ⟨v, hmem, beq_self_eq_true _⟩
    obtain ⟨w, hw⟩ := Option.isSome_iff_exists.mp hsome
    have hname : w.name = v.name := by simpa using List.find?_some hw
    rw [hw, List.inj_on_of_nodup_map hnames (List.mem_of_find?_eq_some hw) hmem hname]

theorem isSome_declared?_iff (h : Model.ofDescription d c = .ok model) (name : String) :
    (model.declared? name).isSome ↔ name ∈ d.names := by
  rw [Option.isSome_iff_exists, names_eq h, ← List.map_cons, List.mem_map]
  simp only [declared?_eq_some_iff h, declares_iff h]

/-- The name of an independent variable leads to it. -/
theorem exists_declared?_of_mem (h : Model.ofDescription d c = .ok model) {name : String}
    (hname : name ∈ model.independents.map (·.name)) :
    ∃ v ∈ model.independents, v.role = .independent ∧ model.declared? name = some v := by
  obtain ⟨v, hv, rfl⟩ := List.mem_map.mp hname
  have hdeclares := (declares_iff h).mpr (List.mem_cons_of_mem _ hv)
  refine ⟨v, hv, ?_, (declared?_eq_some_iff h).mpr ⟨hdeclares, rfl⟩⟩
  rw [(ofDescription_eq_ok_iff.mp h).2.independents] at hv
  obtain ⟨entry, -, rfl⟩ := List.mem_map.mp hv
  rfl

end Validation

namespace Model

/-- The right-hand side of a formula has a term for each part of the model, and no term twice. -/
structure TermsApart (model : Model) : Prop where
  ne_nil : model.terms ≠ []
  nodup : model.terms.Nodup
  length : model.terms.length =
    model.independents.length + model.interactions.length + model.randomEffects.length

/-- The dependent variable is nowhere on the right-hand side: no word of it, no term, no
    interaction, and no slope or group of a random effect. -/
structure ResponseApart (model : Model) : Prop where
  words : model.dependent.name ∉ Formula.words model.rightHandSide
  terms : model.dependent.name ∉ model.terms
  interactions : model.dependent.name ∉ model.interactionNames
  randomEffects : ∀ effect ∈ model.randomEffects,
    effect.group ≠ model.dependent.name ∧ model.dependent.name ∉ effect.slopes

/-- The names that a description declares, and no others, lead each to its one variable. Those in
    interactions and slopes lead to independent variables. -/
structure Resolves (model : Model) (d : Description) : Prop where
  nodup : d.names.Nodup
  isSome : ∀ name, (model.declared? name).isSome ↔ name ∈ d.names
  declared : ∀ name v, model.declared? name = some v ↔ d.Declares v ∧ v.name = name
  factors : ∀ term ∈ model.interactions, ∀ name ∈ term.factors,
    ∃ v ∈ model.independents, v.role = .independent ∧ model.declared? name = some v
  slopes : ∀ effect ∈ model.randomEffects, ∀ name ∈ effect.slopes,
    ∃ v ∈ model.independents, v.role = .independent ∧ model.declared? name = some v

/-- **Formulas of validated models are in order.** Under every convention that is accepted, no term
    is missing or doubled, the dependent variable is not regressed on itself, and every name in a
    term leads to its variable. -/
theorem inOrder_of_ofDescription {d : Description} {c : Convention} {model : Model}
    (h : ofDescription d c = .ok model) :
    model.TermsApart ∧ model.ResponseApart ∧ model.Resolves d := by
  have hn := Validation.wellNamed_of_ofDescription h
  refine ⟨⟨Formula.terms_ne_nil hn, Validation.nodup_terms h, ?_⟩, ⟨?_, ?_, ?_, ?_⟩,
    ⟨?_, ?_, ?_, ?_, ?_⟩⟩
  · simp only [terms, interactionNames, List.length_append, List.length_map]
  · exact Validation.dependent_notMem_words h
  · exact Validation.dependent_notMem_terms h
  · intro hmem
    exact Validation.dependent_notMem_names h (List.mem_append_right _ hmem)
  · intro effect heffect
    exact ⟨Validation.group_ne_dependent h heffect, Validation.dependent_notMem_slopes h heffect⟩
  · exact (Validation.ofDescription_eq_ok_iff.mp h).1.distinct
  · exact Validation.isSome_declared?_iff h
  · exact fun name v => Validation.declared?_eq_some_iff h
  · intro term hterm name hname
    exact Validation.exists_declared?_of_mem h (Validation.factor_mem h hterm hname)
  · intro effect heffect name hname
    exact Validation.exists_declared?_of_mem h (Validation.slope_mem h heffect hname)

/-- Yields of plots. The joined names of two variables are the dependent variable's name in one
    order, and an interaction in the other; a variable is also a group. -/
def plotYields : Description :=
  { Description.empty with
    dependent := some (.bare "a.b")
    independent := [.bare "a", .detailed "b" (some ["low", "high"])]
    interactions := [["b", "a"]]
    random := [⟨"plot", ["b"]⟩, ⟨"a", []⟩]
    family := some "gaussian" }

/-- A formula in which names look alike. -/
theorem inOrder_of_ofDescription_plots : ∃ model,
    ofDescription plotYields ⟨" + ", "."⟩ = .ok model ∧
      model.formula = "a.b ~ a + b + b.a + (1+b|plot) + (1|a)" ∧
      (model.TermsApart ∧ model.ResponseApart ∧ model.Resolves plotYields) := by
  obtain ⟨model, h⟩ : ∃ model, ofDescription plotYields ⟨" + ", "."⟩ = .ok model := ⟨_, rfl⟩
  refine ⟨model, h, ?_, inOrder_of_ofDescription h⟩
  cases h
  decide

end Model

end FitScript
