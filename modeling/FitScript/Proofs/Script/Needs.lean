import FitScript.Proofs.Script.Sections
import FitScript.Proofs.Template.Table

/-!
# What a script needs from its templates

A generator asks its templates for one piece after another, and the first one that is not there is
reported.

* `Need`: a piece of a template table. `Generator.needs`: the pieces of a script, in their order.
* `TemplateTable.Meets`: a table has a piece. `TemplateTable.lack`: how a missing piece is reported.
* `Generator.void_sections`: all sections are generated by asking for the pieces one by one.
* `Generator.firstMissing_decides`: so a script is generated iff all pieces are there, and else
  the first missing piece is reported.
-/

namespace FitScript

open Outcome

/-! ## Pieces -/

/-- A piece of a template table. -/
inductive Need where
  /-- A category with all its fragments. -/
  | category (name : String)
  /-- One fragment of a category. -/
  | fragment (category key : String)
deriving DecidableEq

namespace TemplateTable

variable {table : TemplateTable}

/-- A table has a piece. -/
def Meets (table : TemplateTable) : Need → Prop
  | .category name => table.contains name
  | .fragment category key => ∃ fragments, table.category category = .ok fragments ∧
      ∃ found ∈ fragments, found.key = key

/-- How a missing piece is reported: by its category, if that is missing, and else by its key. -/
def lack (table : TemplateTable) : Need → LookupError
  | .category name => .unknownCategory name
  | .fragment category key =>
    if table.contains category then .unknownFragment category key else .unknownCategory category

/-- Asks for a piece. -/
def ask (table : TemplateTable) : Need → Except LookupError Unit
  | .category name => void (table.category name)
  | .fragment category key => void (table.fragment category key)

theorem contains_iff {name : String} :
    table.contains name ↔ ∃ fragments, table.category name = .ok fragments := by
  rw [contains, Option.isSome_iff_exists]
  exact exists_congr fun fragments => category_eq_ok_iff.symm

theorem category_of_not_contains {name : String} (h : ¬ table.contains name) :
    table.category name = .error (.unknownCategory name) := by
  unfold contains at h
  unfold category
  cases hlookup : table.categories.lookup name with
  | none => rfl
  | some fragments => simp [hlookup] at h

/-- A piece that a table has is found. -/
theorem ask_of_meets {need : Need} (h : table.Meets need) : table.ask need = .ok () := by
  cases need with
  | category name => exact void_eq_ok_iff.mpr (contains_iff.mp h)
  | fragment category key =>
    obtain ⟨fragments, hcategory, found, hfound, hkey⟩ := h
    refine void_eq_ok_iff.mpr ?_
    have hsome : (fragments.find? (·.key == key)).isSome :=
      List.find?_isSome.mpr ⟨found, hfound, by simp [hkey]⟩
    obtain ⟨first, hfirst⟩ := Option.isSome_iff_exists.mp hsome
    exact ⟨first.text, fragment_eq_ok_iff.mpr
      ⟨fragments, category_eq_ok_iff.mp hcategory, first, hfirst, rfl⟩⟩

/-- A piece that a table does not have is reported. -/
theorem ask_of_not_meets {need : Need} (h : ¬ table.Meets need) :
    table.ask need = .error (table.lack need) := by
  cases need with
  | category name => exact void_eq_error_iff.mpr (category_of_not_contains h)
  | fragment category key =>
    refine void_eq_error_iff.mpr ?_
    rw [lack, fragment]
    by_cases hcontains : table.contains category
    · obtain ⟨fragments, hcategory⟩ := contains_iff.mp hcontains
      have hnone : fragments.find? (·.key == key) = none := by
        rw [List.find?_eq_none]
        intro found hfound hkey
        exact h ⟨fragments, hcategory, found, hfound, by simpa using hkey⟩
      rw [if_pos hcontains, hcategory]
      simp only [bind, Except.bind, hnone]
      rfl
    · rw [if_neg hcontains, category_of_not_contains hcontains]
      rfl

theorem ask_eq_ok_iff {need : Need} : table.ask need = .ok () ↔ table.Meets need := by
  constructor
  · intro h
    by_contra hmissing
    rw [ask_of_not_meets hmissing] at h
    exact absurd h (by simp)
  · exact ask_of_meets

theorem ask_eq_error_iff {need : Need} {e : LookupError} :
    table.ask need = .error e ↔ ¬ table.Meets need ∧ e = table.lack need := by
  by_cases h : table.Meets need
  · simp [ask_of_meets h, h]
  · simp [ask_of_not_meets h, h, eq_comm]

/-- The built-in table has the fragments of two packages. -/
theorem builtin_meets_package_iff {category package : String}
    (h : category = "installs" ∨ category = "imports") :
    builtin.Meets (.fragment category package) ↔ package = "tidyverse" ∨ package = "lme4" := by
  have hkeys : ∃ fragments, builtin.category category = .ok fragments ∧
      fragments.map (·.key) = ["tidyverse", "lme4"] := by
    rcases h with rfl | rfl <;> exact ⟨_, rfl, rfl⟩
  obtain ⟨fragments, hcategory, hkeys⟩ := hkeys
  have hfound : (∃ found ∈ fragments, found.key = package) ↔ package ∈ fragments.map (·.key) :=
    List.mem_map.symm
  simp only [Meets, hcategory, Except.ok.injEq, exists_eq_left', hfound, hkeys, List.mem_cons,
    List.not_mem_nil, or_false]

end TemplateTable

/-! ## Scripts -/

namespace Generator

variable {g : Generator}

/-- The pieces of the section that installs and loads the packages. -/
def preambleNeeds (g : Generator) : List Need :=
  .category "setup" ::
    (g.packages.map (.fragment "installs") ++ g.packages.map (.fragment "imports"))

/-- The pieces of the section that reads the data. -/
def loadingNeeds (g : Generator) : List Need :=
  .fragment "loading" "read" ::
    if g.data.isNone then [.fragment "loading" "replace_path"] else []

/-- The pieces of a script, in the order in which they are asked for. -/
def needs (g : Generator) : List Need :=
  g.preambleNeeds ++ g.loadingNeeds ++ [.fragment "modeling" g.fittingFunction.name]

theorem void_packages (category : String) :
    void (g.packages.mapM (g.templates.fragment category)) =
      forM (g.packages.map (.fragment category)) g.templates.ask := by
  rw [void_mapM, List.forM_map]
  rfl

theorem void_preamble : void g.preamble = forM g.preambleNeeds g.templates.ask := by
  rw [preambleNeeds, List.forM_cons, List.forM_append]
  refine void_bind_eq rfl fun setup _ => ?_
  refine void_bind_eq (void_packages "installs") fun installs _ => ?_
  rw [void_bind_pure, void_packages]

theorem void_loading : void g.loading = forM g.loadingNeeds g.templates.ask := by
  rw [loadingNeeds, List.forM_cons]
  refine void_bind_eq rfl fun read _ => ?_
  cases g.data with
  | some source => rfl
  | none => exact void_bind_pure.trans forM_singleton.symm

theorem void_modeling :
    void g.modeling = g.templates.ask (.fragment "modeling" g.fittingFunction.name) :=
  void_bind_pure

/-- **The sections are generated by asking for their pieces**, one after the other. -/
theorem void_sections : void g.sections = forM g.needs g.templates.ask := by
  rw [needs, List.append_assoc, List.forM_append, List.forM_append, forM_singleton]
  refine void_bind_eq void_preamble fun preamble _ => ?_
  refine void_bind_eq void_loading fun loading _ => ?_
  rw [void_bind_pure, void_modeling]

theorem mem_packages_iff {package : String} :
    package ∈ g.packages ↔ package ∈ g.options.basePackages ∨
      g.model.isMixed ∧ package = mixedEffectsPackage := by
  rw [packages, mem_firstOccurrences, List.mem_append]
  cases g.model.isMixed <;> simp

/-- The built-in table has all pieces of a script if the base packages are among its packages. -/
theorem builtin_meets_needs_iff :
    (∀ need ∈ g.needs, TemplateTable.builtin.Meets need) ↔
      ∀ package ∈ g.options.basePackages, package = "tidyverse" ∨ package = "lme4" := by
  have hsetup : TemplateTable.builtin.Meets (.category "setup") := rfl
  have hread : TemplateTable.builtin.Meets (.fragment "loading" "read") :=
    ⟨_, rfl, _, List.mem_cons_of_mem _ List.mem_cons_self, rfl⟩
  have hplace : TemplateTable.builtin.Meets (.fragment "loading" "replace_path") :=
    ⟨_, rfl, _, List.mem_cons_self, rfl⟩
  have hcall : TemplateTable.builtin.Meets (.fragment "modeling" g.fittingFunction.name) := by
    cases g.fittingFunction
    · exact ⟨_, rfl, _, List.mem_cons_self, rfl⟩
    · exact ⟨_, rfl, _, List.mem_cons_of_mem _ List.mem_cons_self, rfl⟩
  constructor
  · intro h package hpackage
    refine (TemplateTable.builtin_meets_package_iff (.inl rfl)).mp
      (h (.fragment "installs" package) ?_)
    simp [needs, preambleNeeds, mem_packages_iff, hpackage]
  · intro h need hneed
    have hpackages : ∀ package ∈ g.packages, package = "tidyverse" ∨ package = "lme4" := by
      intro package hpackage
      rcases mem_packages_iff.mp hpackage with hbase | ⟨-, rfl⟩
      · exact h package hbase
      · exact .inr rfl
    simp only [needs, preambleNeeds, loadingNeeds, List.mem_append, List.mem_cons, List.mem_map,
      List.not_mem_nil, or_false] at hneed
    rcases hneed with
      ((rfl | ⟨package, hpackage, rfl⟩ | ⟨package, hpackage, rfl⟩) | rfl | hneed) | rfl
    · exact hsetup
    · exact (TemplateTable.builtin_meets_package_iff (.inl rfl)).mpr (hpackages package hpackage)
    · exact (TemplateTable.builtin_meets_package_iff (.inr rfl)).mpr (hpackages package hpackage)
    · exact hread
    · cases hdata : g.data with
      | none =>
        rw [hdata] at hneed
        obtain rfl := List.mem_singleton.mp hneed
        exact hplace
      | some source =>
        rw [hdata] at hneed
        exact absurd hneed List.not_mem_nil
    · exact hcall

theorem exists_sections_iff :
    (∃ sections, g.sections = .ok sections) ↔ ∀ need ∈ g.needs, g.templates.Meets need := by
  rw [← void_eq_ok_iff, void_sections, forM_eq_ok_iff]
  simp only [TemplateTable.ask_eq_ok_iff]

theorem sections_eq_error_iff {e : LookupError} :
    g.sections = .error e ↔ ∃ before need after, g.needs = before ++ need :: after ∧
      (∀ met ∈ before, g.templates.Meets met) ∧ ¬ g.templates.Meets need ∧
        e = g.templates.lack need := by
  rw [← void_eq_error_iff, void_sections, forM_eq_error_iff]
  simp only [TemplateTable.ask_eq_ok_iff, TemplateTable.ask_eq_error_iff]

/-- **The first missing piece decides.** A script is generated iff the templates have all of its
    pieces, and it is its sections one after another; else the first piece that is missing is
    reported. With the built-in templates this depends on the base packages alone. -/
theorem firstMissing_decides (g : Generator) :
    ((∃ sections, g.sections = .ok sections) ↔ ∀ need ∈ g.needs, g.templates.Meets need) ∧
    (∀ e, g.sections = .error e ↔ ∃ before need after, g.needs = before ++ need :: after ∧
      (∀ met ∈ before, g.templates.Meets met) ∧ ¬ g.templates.Meets need ∧
        e = g.templates.lack need) ∧
    (∀ e, g.script = .error e ↔ g.sections = .error e) ∧
    (∀ text, g.script = .ok text ↔ ∃ preamble loading modeling,
      g.preamble = .ok preamble ∧ g.loading = .ok loading ∧ g.modeling = .ok modeling ∧
        preamble ++ loading ++ modeling = text) ∧
    ((∃ text, (g.withTemplates .builtin).script = .ok text) ↔
      ∀ package ∈ g.options.basePackages, package = "tidyverse" ∨ package = "lme4") := by
  refine ⟨exists_sections_iff, fun e => sections_eq_error_iff, fun e => map_eq_error_iff,
    fun text => script_eq_ok_iff, ?_⟩
  have hscript : (∃ text, (g.withTemplates .builtin).script = .ok text) ↔
      ∃ sections, (g.withTemplates .builtin).sections = .ok sections := by
    simp only [script, map_eq_ok_iff]
    exact ⟨fun ⟨_, sections, h, _⟩ => ⟨sections, h⟩, fun ⟨sections, h⟩ => ⟨_, sections, h, rfl⟩⟩
  rw [hscript, exists_sections_iff]
  exact builtin_meets_needs_iff (g := g.withTemplates .builtin)

end Generator

end FitScript
