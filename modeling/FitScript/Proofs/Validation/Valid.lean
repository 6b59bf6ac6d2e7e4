import FitScript.Model.Validation
import FitScript.Proofs.Outcome

/-!
# Valid descriptions

Which descriptions a model can be made of, said without the order in which the rules are checked.

* `Description.Valid`: the rules for a description and a convention. `Model.Represents`: the model
  of a description, part by part.
* `ofDescription_eq_ok_iff`: a description has a model iff it is valid, and the model is the one
  that represents it.
* `exists_ofDescription_iff_valid`: validation accepts the valid descriptions and no others.
-/

namespace FitScript

/-! ## Rules -/

/-- A variable has a name that can stand unquoted. Its levels, if declared, are there and differ
    from one another. -/
structure VariableEntry.Valid (entry : VariableEntry) : Prop where
  syntactic : Name.isSyntactic entry.name
  levels : ∀ levels, entry.levels = some levels → levels ≠ [] ∧ levels.Nodup

/-- The link that a name stands for; without a name, the canonical one of the family. -/
def Family.givenLink (family : Family) : Option String → Option Link
  | none => some family.canonicalLink
  | some name => Link.ofName? name

namespace Description

/-- All variables of a description, the dependent one first. -/
def entries (d : Description) : List VariableEntry :=
  d.dependent.toList ++ d.independent

/-- The names of all variables. -/
def names (d : Description) : List String :=
  d.entries.map (·.name)

/-- The names of the independent variables. -/
def predictors (d : Description) : List String :=
  d.independent.map (·.name)

/-- An interaction combines two or more different independent variables, under a name that no
    variable has. -/
structure ValidInteraction (d : Description) (joiner : String) (term : List String) : Prop where
  two_le : 2 ≤ term.length
  nodup : term.Nodup
  declared : ∀ name ∈ term, name ∈ d.predictors
  fresh : joiner.intercalate term ∉ d.names

/-- Two interactions combine different sets of variables, under different names. -/
structure Apart (joiner : String) (t u : List String) : Prop where
  sets : ¬ ∀ name, name ∈ t ↔ name ∈ u
  names : joiner.intercalate t ≠ joiner.intercalate u

/-- A random effect is grouped by a variable other than the dependent one, and its slopes are
    independent variables. -/
structure ValidRandom (d : Description) (entry : RandomEntry) : Prop where
  syntactic : Name.isSyntactic entry.group
  not_dependent : ∀ y, d.dependent = some y → entry.group ≠ y.name
  declared : ∀ name ∈ entry.slopes, name ∈ d.predictors

/-- The family and the link that a description names go together, and the family has a likelihood
    if there are random effects. -/
structure Fits (d : Description) (family : Family) (link : Link) : Prop where
  named : d.family.bind Family.ofName? = some family
  linked : family.givenLink d.link = some link
  supported : family.supports link
  likelihood : family.isQuasi → d.random = []

/-- The rules for a description and the convention of its formula. -/
structure Valid (d : Description) (c : Convention) : Prop where
  separator : Text.trim c.termSeparator = "+"
  joiner : Name.isSyntactic ("a" ++ c.interactionJoiner ++ "b")
  dependent : d.dependent.isSome
  independent : d.independent ≠ []
  entries : ∀ entry ∈ d.entries, entry.Valid
  distinct : d.names.Nodup
  interactions : ∀ term ∈ d.interactions, d.ValidInteraction c.interactionJoiner term
  apart : d.interactions.Pairwise (Apart c.interactionJoiner)
  random : ∀ entry ∈ d.random, d.ValidRandom entry
  groups : (d.random.map (·.group)).Nodup
  fit : ∃ family link, d.Fits family link

end Description

/-- The variable of an entry. -/
def VariableEntry.toVariable (entry : VariableEntry) (role : Role) : Variable :=
  ⟨entry.name, role, entry.levels⟩

/-- A model has all parts of a description and its convention, in the same order. -/
structure Model.Represents (model : Model) (d : Description) (c : Convention) : Prop where
  id : model.id = d.id
  dependent : d.dependent.map (·.toVariable .dependent) = some model.dependent
  independents : model.independents = d.independent.map (·.toVariable .independent)
  interactions : model.interactions = d.interactions.map Interaction.mk
  randomEffects : model.randomEffects = d.random.map fun entry => ⟨entry.group, entry.slopes⟩
  fit : d.Fits model.family model.link
  convention : model.convention = c

/-! ## Conventions -/

theorem Convention.check_eq_ok_iff {c : Convention} :
    c.check = .ok () ↔ Text.trim c.termSeparator = "+" ∧
      Name.isSyntactic ("a" ++ c.interactionJoiner ++ "b") := by
  unfold Convention.check
  split_ifs with h1 h2
  · simp [h1]
  · simp only [false_iff, not_and]
    intro _ h
    simp [h] at h2
  · simp only [true_iff]
    exact ⟨not_not.mp h1, by simpa using h2⟩

namespace Validation

open Outcome

/-! ## Variables -/

theorem checkLevels_eq_ok_iff {name : String} {given : Option (List String)} :
    checkLevels name given = .ok () ↔
      ∀ levels, given = some levels → levels ≠ [] ∧ levels.Nodup := by
  unfold checkLevels
  split
  · simp
  · simp
  · next levels hne =>
    split
    · next level h =>
      have : firstRepeated? [] levels ≠ none := by simp [h]
      rw [Ne, firstRepeated?_eq_none_iff] at this
      simp only [reduceCtorEq, false_iff]
      intro hl
      exact this ⟨(hl levels rfl).2, by simp⟩
    · next h =>
      simp only [true_iff]
      rintro _ ⟨⟩
      exact ⟨hne, (firstRepeated?_eq_none_iff.mp h).1⟩

theorem variableOf_eq_ok_iff {role : Role} {field : String} {entry : VariableEntry}
    {v : Variable} :
    variableOf role field entry = .ok v ↔ entry.Valid ∧ v = entry.toVariable role := by
  unfold variableOf
  split_ifs with h
  · rw [map_eq_ok_iff]
    constructor
    · rintro ⟨_, hl, rfl⟩
      exact ⟨⟨h, checkLevels_eq_ok_iff.mp hl⟩, rfl⟩
    · rintro ⟨hv, rfl⟩
      exact ⟨(), checkLevels_eq_ok_iff.mpr hv.levels, rfl⟩
  · simp only [false_iff, not_and]
    intro hv
    exact absurd hv.syntactic h

theorem dependentOf_eq_ok_iff {given : Option VariableEntry} {v : Variable} :
    dependentOf given = .ok v ↔
      ∃ entry, given = some entry ∧ entry.Valid ∧ v = entry.toVariable .dependent := by
  cases given with
  | none => simp [dependentOf]
  | some entry => simp [dependentOf, variableOf_eq_ok_iff]

theorem declaredAfter_eq_ok_iff {taken : List String} {entries : List VariableEntry}
    {vs : List Variable} :
    declaredAfter taken entries = .ok vs ↔
      (∀ entry ∈ entries, entry.Valid) ∧ (entries.map (·.name)).Nodup ∧
        (∀ entry ∈ entries, entry.name ∉ taken) ∧
        vs = entries.map (·.toVariable .independent) := by
  induction entries generalizing taken vs with
  | nil => simp [declaredAfter, eq_comm]
  | cons entry rest ih =>
    rw [declaredAfter]
    split_ifs with h
    · simp [h]
    · simp only [bind_eq_ok_iff, pure_eq_ok_iff, variableOf_eq_ok_iff, ih]
      constructor
      · rintro ⟨_, ⟨hv, rfl⟩, _, ⟨hvs, hnd, hfresh, rfl⟩, rfl⟩
        simp only [List.mem_cons, not_or] at hfresh
        refine ⟨by simpa [hv] using hvs, ?_, by simpa [h] using fun e he => (hfresh e he).2, rfl⟩
        rw [List.map_cons, List.nodup_cons]
        refine ⟨?_, hnd⟩
        intro hmem
        obtain ⟨e, he, heq⟩ := List.mem_map.mp hmem
        exact (hfresh e he).1 heq
      · rintro ⟨hvs, hnd, hfresh, rfl⟩
        rw [List.map_cons, List.nodup_cons] at hnd
        refine ⟨_, ⟨hvs entry (by simp), rfl⟩, _, ⟨fun e he => hvs e (by simp [he]), hnd.2, ?_, rfl⟩,
          rfl⟩
        intro e he
        rw [List.mem_cons, not_or]
        exact ⟨fun heq => hnd.1 (heq ▸ List.mem_map_of_mem he), hfresh e (by simp [he])⟩

theorem independentsOf_eq_ok_iff {dependent : String} {entries : List VariableEntry}
    {vs : List Variable} :
    independentsOf dependent entries = .ok vs ↔
      entries ≠ [] ∧ (∀ entry ∈ entries, entry.Valid) ∧
        (dependent :: entries.map (·.name)).Nodup ∧
        vs = entries.map (·.toVariable .independent) := by
  unfold independentsOf
  split_ifs with h
  · simp [List.isEmpty_iff.mp h]
  · rw [declaredAfter_eq_ok_iff, List.nodup_cons]
    have hne : entries ≠ [] := fun h' => h (List.isEmpty_iff.mpr h')
    have hmem : (∀ entry ∈ entries, entry.name ∉ [dependent]) ↔
        dependent ∉ entries.map (·.name) := by
      simp only [List.mem_singleton, List.mem_map, not_exists, not_and]
    rw [hmem]
    tauto

/-! ## Terms -/

section Terms

variable {d : Description} {y : VariableEntry} {joiner : String}

theorem names_eq_cons (hy : d.dependent = some y) : d.names = y.name :: d.predictors := by
  simp [Description.names, Description.entries, Description.predictors, hy]

/-- Lists without repetitions have the same members iff one rearranges the other. -/
theorem isPerm_iff_mem_iff {t u : List String} (ht : t.Nodup) (hu : u.Nodup) :
    t.isPerm u ↔ ∀ name, name ∈ t ↔ name ∈ u := by
  rw [List.isPerm_iff, List.perm_ext_iff_of_nodup ht hu]

theorem apart_iff {t u : List String} (ht : t.Nodup) (hu : u.Nodup) :
    Description.Apart joiner t u ↔
      t.isPerm u = false ∧ (joiner.intercalate t == joiner.intercalate u) = false := by
  rw [← Bool.not_eq_true, isPerm_iff_mem_iff ht hu, beq_eq_false_iff_ne]
  exact ⟨fun h => ⟨h.sets, h.names⟩, fun h => ⟨h.1, h.2⟩⟩

theorem interactionAfter_eq_ok_iff (hy : d.dependent = some y) {earlier : List Interaction}
    (hearlier : ∀ e ∈ earlier, e.factors.Nodup) {term : List String} {i : Interaction} :
    interactionAfter ⟨y.name, d.predictors, joiner⟩ earlier term = .ok i ↔
      d.ValidInteraction joiner term ∧ (∀ e ∈ earlier, Description.Apart joiner e.factors term) ∧
        i = ⟨term⟩ := by
  unfold interactionAfter
  by_cases hshort : term.length < 2 ∨ (firstRepeated? [] term).isSome
  · rw [if_pos hshort]
    simp only [reduceCtorEq, false_iff, not_and]
    intro hv
    have : firstRepeated? [] term = none := firstRepeated?_eq_none_iff.mpr ⟨hv.nodup, by simp⟩
    have := hv.two_le
    simp_all
    omega
  rw [if_neg hshort]
  simp only [not_or, Nat.not_lt, Bool.not_eq_true, Option.isSome_eq_false_iff,
    Option.isNone_iff_eq_none, firstRepeated?_eq_none_iff] at hshort
  obtain ⟨htwo, hnodup, -⟩ := hshort
  cases hfind : term.find? (· ∉ d.predictors) with
  | some name =>
    simp only [reduceCtorEq, false_iff, not_and]
    intro hv
    have := List.find?_some hfind
    have := hv.declared name (List.mem_of_find?_eq_some hfind)
    simp_all
  | none =>
    have hdeclared : ∀ name ∈ term, name ∈ d.predictors := by simpa using hfind
    have hfresh : (joiner.intercalate term ∈ d.predictors ∨ joiner.intercalate term = y.name) ↔
        joiner.intercalate term ∈ d.names := by
      rw [names_eq_cons hy, List.mem_cons, or_comm]
    simp only [Interaction.name, hfresh]
    have hvalid : d.ValidInteraction joiner term ↔ joiner.intercalate term ∉ d.names :=
      ⟨fun hv => hv.fresh, fun h => ⟨htwo, hnodup, hdeclared, h⟩⟩
    have hapart : (∀ e ∈ earlier, Description.Apart joiner e.factors term) ↔
        earlier.any (·.factors.isPerm term) = false ∧
          (earlier.any fun e => joiner.intercalate e.factors == joiner.intercalate term) = false := by
      rw [List.any_eq_false, List.any_eq_false, ← forall₂_and]
      refine forall₂_congr fun e he => ?_
      rw [apart_iff (hearlier e he) hnodup, Bool.not_eq_true, Bool.not_eq_true]
    rw [hvalid, hapart]
    split_ifs with h1 h2 h3
    · simp [h1]
    · simp [h2]
    · simp [h3]
    · simp [h1, h2, h3, eq_comm]

theorem interactionsAfter_eq_ok_iff (hy : d.dependent = some y) {earlier : List Interaction}
    (hearlier : ∀ e ∈ earlier, e.factors.Nodup) {terms : List (List String)}
    {is : List Interaction} :
    interactionsAfter ⟨y.name, d.predictors, joiner⟩ earlier terms = .ok is ↔
      (∀ term ∈ terms, d.ValidInteraction joiner term) ∧
        terms.Pairwise (Description.Apart joiner) ∧
        (∀ e ∈ earlier, ∀ term ∈ terms, Description.Apart joiner e.factors term) ∧
        is = terms.map Interaction.mk := by
  induction terms generalizing earlier is with
  | nil => simp [interactionsAfter, eq_comm]
  | cons term rest ih =>
    rw [interactionsAfter]
    simp only [bind_eq_ok_iff, pure_eq_ok_iff, interactionAfter_eq_ok_iff hy hearlier]
    constructor
    · rintro ⟨_, ⟨hv, hapart, rfl⟩, _, hrest, rfl⟩
      rw [ih (by simpa [hv.nodup] using hearlier)] at hrest
      obtain ⟨hvs, hpair, hlater, rfl⟩ := hrest
      simp only [List.forall_mem_cons] at hlater ⊢
      exact ⟨⟨hv, hvs⟩, List.pairwise_cons.mpr ⟨hlater.1, hpair⟩,
        fun e he => ⟨hapart e he, hlater.2 e he⟩, rfl⟩
    · rintro ⟨hvs, hpair, hlater, rfl⟩
      simp only [List.forall_mem_cons] at hvs hlater
      rw [List.pairwise_cons] at hpair
      refine ⟨⟨term⟩, ⟨hvs.1, fun e he => (hlater e he).1, rfl⟩, _, ?_, rfl⟩
      rw [ih (by simpa [hvs.1.nodup] using hearlier)]
      simp only [List.forall_mem_cons]
      exact ⟨hvs.2, hpair.2, ⟨hpair.1, fun e he => (hlater e he).2⟩, trivial⟩

theorem randomEffectAfter_eq_ok_iff (hy : d.dependent = some y) {taken : List String}
    {entry : RandomEntry} {effect : RandomEffect} :
    randomEffectAfter ⟨y.name, d.predictors, joiner⟩ taken entry = .ok effect ↔
      d.ValidRandom entry ∧ entry.group ∉ taken ∧ effect = ⟨entry.group, entry.slopes⟩ := by
  have hvalid : d.ValidRandom entry ↔ Name.isSyntactic entry.group ∧ entry.group ≠ y.name ∧
      entry.slopes.find? (· ∉ d.predictors) = none := by
    have hslopes : entry.slopes.find? (· ∉ d.predictors) = none ↔
        ∀ name ∈ entry.slopes, name ∈ d.predictors := by simp
    rw [hslopes]
    constructor
    · rintro ⟨h1, h2, h3⟩
      exact ⟨h1, h2 y hy, h3⟩
    · rintro ⟨h1, h2, h3⟩
      refine ⟨h1, ?_, h3⟩
      rintro _ h
      rw [hy, Option.some.injEq] at h
      exact h ▸ h2
  unfold randomEffectAfter
  rw [hvalid]
  split_ifs with h1 h2 h3
  · simp_all
  · simp [h2]
  · simp [h3]
  · cases h : entry.slopes.find? (· ∉ d.predictors) with
    | some name => simp
    | none =>
      have h1 : Name.isSyntactic entry.group = true := by simpa using h1
      simp only [h1, h2, h3, ne_eq, not_false_eq_true, true_and, Except.ok.injEq]
      exact eq_comm

theorem randomEffectsAfter_eq_ok_iff (hy : d.dependent = some y) {taken : List String}
    {entries : List RandomEntry} {effects : List RandomEffect} :
    randomEffectsAfter ⟨y.name, d.predictors, joiner⟩ taken entries = .ok effects ↔
      (∀ entry ∈ entries, d.ValidRandom entry) ∧ (entries.map (·.group)).Nodup ∧
        (∀ entry ∈ entries, entry.group ∉ taken) ∧
        effects = entries.map fun entry => ⟨entry.group, entry.slopes⟩ := by
  induction entries generalizing taken effects with
  | nil => simp [randomEffectsAfter, eq_comm]
  | cons entry rest ih =>
    rw [randomEffectsAfter]
    simp only [bind_eq_ok_iff, pure_eq_ok_iff, randomEffectAfter_eq_ok_iff hy, ih,
      List.forall_mem_cons]
    rw [List.map_cons, List.nodup_cons]
    have hlater : (∀ e ∈ rest, e.group ∉ entry.group :: taken) ↔
        entry.group ∉ rest.map (·.group) ∧ ∀ e ∈ rest, e.group ∉ taken := by
      simp only [List.mem_cons, not_or, List.mem_map, not_exists, not_and, ← forall₂_and]
    rw [hlater]
    constructor
    · rintro ⟨_, ⟨hv, hfree, rfl⟩, _, ⟨hvs, hnd, ⟨hnew, hfrees⟩, rfl⟩, rfl⟩
      exact ⟨⟨hv, hvs⟩, ⟨hnew, hnd⟩, ⟨hfree, hfrees⟩, rfl⟩
    · rintro ⟨⟨hv, hvs⟩, ⟨hnew, hnd⟩, ⟨hfree, hfrees⟩, rfl⟩
      exact ⟨_, ⟨hv, hfree, rfl⟩, _, ⟨hvs, hnd, ⟨hnew, hfrees⟩, rfl⟩, rfl⟩

end Terms

/-! ## Family and link -/

theorem familyOf_eq_ok_iff {given : Option String} {family : Family} :
    familyOf given = .ok family ↔ given.bind Family.ofName? = some family := by
  unfold familyOf
  split
  · simp
  · rw [Option.bind_some]
    split
    · next h => simp [h]
    · next h => simp [h]

theorem linkOf_eq_ok_iff {family : Family} {given : Option String} {link : Link} :
    linkOf family given = .ok link ↔ family.givenLink given = some link := by
  unfold linkOf Family.givenLink
  split
  · simp
  · split
    · next h => simp [h]
    · next h => simp [h]

theorem checkSupport_eq_ok_iff {family : Family} {link : Link} :
    checkSupport family link = .ok () ↔ family.supports link := by
  unfold checkSupport
  split_ifs with h <;> simp [h]

theorem checkLikelihood_eq_ok_iff {family : Family} {effects : List RandomEffect} :
    checkLikelihood family effects = .ok () ↔ (family.isQuasi → effects = []) := by
  unfold checkLikelihood
  split_ifs with h
  · simpa using h
  · simpa using h

/-! ## Models -/

/-- The independent variables of a model have the names of the entries. -/
theorem names_map_toVariable (d : Description) :
    (d.independent.map (·.toVariable .independent)).map (·.name) = d.predictors := by
  rw [List.map_map]
  rfl

/-- A description has a model iff it is valid, and then the model represents it. -/
theorem ofDescription_eq_ok_iff {d : Description} {c : Convention} {model : Model} :
    Model.ofDescription d c = .ok model ↔ d.Valid c ∧ model.Represents d c := by
  unfold Model.ofDescription
  simp only [bind_eq_ok_iff, exists_unit_iff, pure_eq_ok_iff, Convention.check_eq_ok_iff,
    dependentOf_eq_ok_iff, independentsOf_eq_ok_iff, familyOf_eq_ok_iff, linkOf_eq_ok_iff,
    checkSupport_eq_ok_iff, checkLikelihood_eq_ok_iff]
  constructor
  · rintro ⟨⟨hsep, hjoin⟩, _, ⟨y, hy, hyvalid, rfl⟩, _, ⟨hne, hvalid, hnodup, rfl⟩, interactions,
      hinter, effects, heffects, family, hfamily, link, hlink, hsupp, hlik, rfl⟩
    rw [names_map_toVariable] at hinter heffects
    obtain ⟨hterms, hapart, -, rfl⟩ :=
      (interactionsAfter_eq_ok_iff (y := y) hy (by simp)).mp hinter
    obtain ⟨hrandom, hgroups, -, rfl⟩ := (randomEffectsAfter_eq_ok_iff (y := y) hy).mp heffects
    have hfits : d.Fits family link :=
      ⟨hfamily, hlink, hsupp, fun h => List.map_eq_nil_iff.mp (hlik h)⟩
    constructor
    · exact
        { separator := hsep
          joiner := hjoin
          dependent := by simp [hy]
          independent := hne
          entries := by simpa [Description.entries, hy] using ⟨hyvalid, hvalid⟩
          distinct := by rw [names_eq_cons hy]; exact hnodup
          interactions := hterms
          apart := hapart
          random := hrandom
          groups := hgroups
          fit := ⟨family, link, hfits⟩ }
    · exact ⟨rfl, by simp [hy], rfl, rfl, rfl, hfits, rfl⟩
  · rintro ⟨hv, hr⟩
    obtain ⟨y, hy⟩ := Option.isSome_iff_exists.mp hv.dependent
    obtain ⟨id, dependent, independents, interactions, effects, family, link, convention⟩ := model
    obtain ⟨hid, hdep, hind, hint, hran, hfit, hconv⟩ := hr
    simp only [hy, Option.map_some, Option.some.injEq] at hid hdep hind hint hran hfit hconv
    subst hid hdep hind hint hran hconv
    have hentries := hv.entries
    simp only [Description.entries, hy, Option.toList_some, List.cons_append, List.nil_append,
      List.forall_mem_cons] at hentries
    refine ⟨⟨hv.separator, hv.joiner⟩, _, ⟨y, hy, hentries.1, rfl⟩, _,
      ⟨hv.independent, hentries.2, names_eq_cons hy ▸ hv.distinct, rfl⟩, _, ?_, _, ?_, family,
      hfit.named, link, hfit.linked, hfit.supported, ?_, rfl⟩
    · rw [names_map_toVariable, VariableEntry.toVariable, interactionsAfter_eq_ok_iff hy (by simp)]
      exact ⟨hv.interactions, hv.apart, by simp, rfl⟩
    · rw [names_map_toVariable, VariableEntry.toVariable, randomEffectsAfter_eq_ok_iff hy]
      exact ⟨hv.random, hv.groups, by simp, rfl⟩
    · intro h
      rw [hfit.likelihood h, List.map_nil]

/-- A valid description has a model that represents it. -/
theorem exists_represents_of_valid {d : Description} {c : Convention} (h : d.Valid c) :
    ∃ model : Model, model.Represents d c := by
  obtain ⟨y, hy⟩ := Option.isSome_iff_exists.mp h.dependent
  obtain ⟨family, link, hfits⟩ := h.fit
  exact ⟨⟨d.id, y.toVariable .dependent, d.independent.map (·.toVariable .independent),
    d.interactions.map Interaction.mk, d.random.map fun entry => ⟨entry.group, entry.slopes⟩,
    family, link, c⟩, ⟨rfl, by simp [hy], rfl, rfl, rfl, hfits, rfl⟩⟩

/-- The descriptions that have a model are the valid ones. -/
theorem accepted_iff_valid {d : Description} {c : Convention} :
    (∃ model, Model.ofDescription d c = .ok model) ↔ d.Valid c := by
  constructor
  · rintro ⟨model, h⟩
    exact (ofDescription_eq_ok_iff.mp h).1
  · intro hv
    obtain ⟨model, hr⟩ := exists_represents_of_valid hv
    exact ⟨model, ofDescription_eq_ok_iff.mpr ⟨hv, hr⟩⟩

/-- **Validation decides validity.** A description has a model under a convention iff all rules
    hold, and the model consists of the parts of the description. -/
theorem exists_ofDescription_iff_valid (d : Description) (c : Convention) :
    ((∃ model, Model.ofDescription d c = .ok model) ↔ d.Valid c) ∧
      ∀ model, Model.ofDescription d c = .ok model → model.Represents d c :=
  ⟨accepted_iff_valid, fun _ h => (ofDescription_eq_ok_iff.mp h).2⟩

end Validation

end FitScript
