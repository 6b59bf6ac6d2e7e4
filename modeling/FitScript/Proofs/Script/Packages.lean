import FitScript.Proofs.Script.Layout
import FitScript.Proofs.Script.Needs

/-!
# Packages of scripts

Every package that a script needs is installed once and loaded once, in order.

* `packagesInOrder`: the packages are the base packages without repetitions, in the order in which
  they first occur, and the package of mixed models behind them.
* `Layout.exists_count_install`, `Layout.exists_count_load`: how often their lines stand in a script
  from the built-in templates.
* `script_listsPackages_iff`: so once each, and in order, unless a line that asks for a data file
  installs or loads a package.
* `script_loads_again`: a placeholder with line feeds is such a line.
-/

namespace FitScript

/-! ## First occurrences -/

namespace Generator

/-- First occurrences keep the order in which texts first occur. -/
theorem pairwise_firstOccurrences (seen texts : List String) :
    (firstOccurrences seen texts).Pairwise fun s t => texts.idxOf s < texts.idxOf t := by
  induction texts generalizing seen with
  | nil => exact .nil
  | cons first rest ih =>
    -- what is left of the rest without the first text keeps its order
    have hrest : ∀ seen, first ∈ seen → (firstOccurrences seen rest).Pairwise fun s t =>
        (first :: rest).idxOf s < (first :: rest).idxOf t := by
      intro seen hfirst
      refine (ih seen).imp_of_mem ?_
      intro s t hs ht hlt
      have hne : ∀ {u}, u ∈ firstOccurrences seen rest → first ≠ u := by
        rintro u hu rfl
        exact (mem_firstOccurrences.mp hu).2 hfirst
      rw [List.idxOf_cons_ne rest (hne hs), List.idxOf_cons_ne rest (hne ht)]
      exact Nat.succ_lt_succ hlt
    by_cases hfirst : first ∈ seen
    · rw [firstOccurrences, if_pos hfirst]
      exact hrest seen hfirst
    · rw [firstOccurrences, if_neg hfirst, List.pairwise_cons]
      refine ⟨fun s hs => ?_, hrest _ List.mem_cons_self⟩
      have hne : first ≠ s := by
        rintro rfl
        exact (mem_firstOccurrences.mp hs).2 List.mem_cons_self
      rw [List.idxOf_cons_self, List.idxOf_cons_ne rest hne]
      exact Nat.succ_pos _

/-- A text behind others is left out if it is among them. -/
theorem firstOccurrences_concat (seen texts : List String) (s : String) :
    firstOccurrences seen (texts ++ [s]) =
      firstOccurrences seen texts ++ if s ∈ seen ∨ s ∈ texts then [] else [s] := by
  induction texts generalizing seen with
  | nil => simp [firstOccurrences]
  | cons first rest ih =>
    rw [List.cons_append, firstOccurrences, firstOccurrences]
    by_cases hfirst : first ∈ seen
    · rw [if_pos hfirst, if_pos hfirst, ih]
      have hsame : s ∈ seen ∨ s ∈ rest ↔ s ∈ seen ∨ s ∈ first :: rest := by
        grind
      simp only [hsame]
    · rw [if_neg hfirst, if_neg hfirst, ih, List.cons_append]
      have hsame : s ∈ first :: seen ∨ s ∈ rest ↔ s ∈ seen ∨ s ∈ first :: rest := by
        grind
      simp only [hsame]

variable {g : Generator}

theorem packages_eq (g : Generator) : g.packages = firstOccurrences [] g.options.basePackages ++
    if g.model.isMixed ∧ mixedEffectsPackage ∉ g.options.basePackages then [mixedEffectsPackage]
    else [] := by
  unfold packages
  cases hmixed : g.model.isMixed with
  | false => simp
  | true =>
    rw [if_pos rfl, firstOccurrences_concat]
    by_cases hbase : mixedEffectsPackage ∈ g.options.basePackages <;> simp [hbase]

/-! ## Counting lines -/

open TemplateTable

theorem notMem_of_head? {contents : List String} {line : String} {c d : Char}
    (h : ∀ line ∈ contents, line.toList.head? = some c) (hline : line.toList.head? = some d)
    (hne : d ≠ c) : line ∉ contents := by
  intro hmem
  exact hne (Option.some.inj (hline.symm.trans (h line hmem)))

/-- The lines of a category are lines for packages. -/
theorem PackageLines.exists_package {category : String} {contents : List String}
    (htemplates : g.templates = .builtin) (h : g.PackageLines category contents) {line : String}
    (hline : line ∈ contents) :
    ∃ package, builtin.fragment category package = .ok line := by
  obtain ⟨package, -, hfragment⟩ := Outcome.exists_of_mem_right h hline
  rw [htemplates] at hfragment
  exact ⟨package, hfragment⟩

/-- The lines of a category for the packages of a script are different ones. -/
theorem PackageLines.exists_count_eq_one {category : String} {contents : List String}
    {fragments : List Fragment} (htemplates : g.templates = .builtin)
    (hcategory : builtin.categories.lookup category = some fragments)
    (hnodup : (fragments.map (·.text)).Nodup) (h : g.PackageLines category contents)
    {package : String} (hpackage : package ∈ g.packages) :
    ∃ line, builtin.fragment category package = .ok line ∧
      contents.count line = 1 := by
  unfold PackageLines at h
  rw [htemplates] at h
  have hunique : Relator.BiUnique fun package line =>
      builtin.fragment category package = .ok line :=
    ⟨fun _ _ _ => key_eq_of_fragment hcategory hnodup,
      fun _ _ _ ha hb => Except.ok.inj (ha.symm.trans hb)⟩
  obtain ⟨line, hmem, hline⟩ := Outcome.exists_of_mem_left h hpackage
  have hcontents : contents.Nodup := (List.rel_nodup hunique h).mp (nodup_firstOccurrences _ _)
  exact ⟨line, hline, List.count_eq_one_of_mem hcontents hmem⟩

/-- No line installs a package behind a line that loads one. -/
def InstallsFirst (contents : List String) : Prop :=
  contents.Pairwise fun earlier later =>
    (∃ package, Loads package earlier) → ¬ ∃ package, Installs package later

namespace Layout

variable {text : String}

/-- What stands behind the lines of the packages. -/
def rest (layout : Layout g text) : List String :=
  "" :: (g.asked ++ layout.statement :: "" :: Text.lines layout.call)

theorem head?_installs (layout : Layout g text) (htemplates : g.templates = .builtin) :
    ∀ line ∈ layout.installs, line.toList.head? = some 'i' := by
  intro line hline
  obtain ⟨package, hinstall⟩ := layout.packageLines_installs.exists_package htemplates hline
  exact Installs.head? hinstall

theorem head?_imports (layout : Layout g text) (htemplates : g.templates = .builtin) :
    ∀ line ∈ layout.imports, line.toList.head? = some 'l' := by
  intro line hline
  obtain ⟨package, hload⟩ := layout.packageLines_imports.exists_package htemplates hline
  exact Loads.head? hload

/-- What stands behind the lines of the packages is marked, but for the lines that ask for data. -/
theorem count_rest (layout : Layout g text) {line : String} (h : ¬ Marked line) :
    layout.rest.count line = g.asked.count line := by
  have hempty : "" ≠ line := by
    rintro rfl
    exact h (marked_of_notMem (by decide))
  have hstatement : layout.statement ≠ line := by
    rintro rfl
    exact h layout.marked_statement
  have hcall : line ∉ Text.lines layout.call := fun hmem => h (layout.marked_call line hmem)
  rw [rest, List.count_cons_of_ne hempty, List.count_append, List.count_cons_of_ne hstatement,
    List.count_cons_of_ne hempty, List.count_eq_zero.mpr hcall, Nat.add_zero]

theorem mem_rest_iff (layout : Layout g text) {line : String} (h : ¬ Marked line) :
    line ∈ layout.rest ↔ line ∈ g.asked := by
  rw [← List.count_pos_iff, layout.count_rest h, List.count_pos_iff]

theorem count_eq (layout : Layout g text) {line : String} (h : ¬ Marked line) :
    (Text.lines text).count line = layout.setup.count line + layout.installs.count line +
      layout.imports.count line + g.asked.count line := by
  rw [layout.lines_eq, List.count_append, List.count_append, List.count_append, ← rest,
    layout.count_rest h]
  omega

/-- A package of the script is installed once, and as often as the lines that ask for data do it. -/
theorem exists_count_install (layout : Layout g text) (htemplates : g.templates = .builtin)
    {package : String} (hpackage : package ∈ g.packages) : ∃ install, Installs package install ∧
      (Text.lines text).count install = 1 + g.asked.count install := by
  obtain ⟨install, hinstall, hone⟩ := layout.packageLines_installs.exists_count_eq_one htemplates
    rfl (by decide +kernel) hpackage
  have hhead := Installs.head? hinstall
  have hsetup := List.count_eq_zero.mpr (notMem_of_head? layout.head?_setup hhead (by decide))
  have himports := List.count_eq_zero.mpr
    (notMem_of_head? (layout.head?_imports htemplates) hhead (by decide))
  refine ⟨install, hinstall, ?_⟩
  rw [layout.count_eq (not_marked_of_installs hinstall), hsetup, hone, himports]

/-- So is it loaded. -/
theorem exists_count_load (layout : Layout g text) (htemplates : g.templates = .builtin)
    {package : String} (hpackage : package ∈ g.packages) : ∃ load, Loads package load ∧
      (Text.lines text).count load = 1 + g.asked.count load := by
  obtain ⟨load, hload, hone⟩ := layout.packageLines_imports.exists_count_eq_one htemplates
    rfl (by decide +kernel) hpackage
  have hhead := Loads.head? hload
  have hsetup := List.count_eq_zero.mpr (notMem_of_head? layout.head?_setup hhead (by decide))
  have hinstalls := List.count_eq_zero.mpr
    (notMem_of_head? (layout.head?_installs htemplates) hhead (by decide))
  refine ⟨load, hload, ?_⟩
  rw [layout.count_eq (not_marked_of_loads hload), hsetup, hone, hinstalls]

/-- No line installs a package behind one that loads one, unless a line that asks for data does. -/
theorem installsFirst_iff (layout : Layout g text) (htemplates : g.templates = .builtin)
    {package : String} (hpackage : package ∈ g.packages) :
    InstallsFirst (Text.lines text) ↔ ∀ line ∈ g.asked, ∀ package, ¬ Installs package line := by
  obtain ⟨load, himport, hload⟩ : ∃ load ∈ layout.imports, Loads package load := by
    obtain ⟨load, hmem, hload⟩ := Outcome.exists_of_mem_left layout.packageLines_imports hpackage
    rw [htemplates] at hload
    exact ⟨load, hmem, hload⟩
  rw [layout.lines_eq, ← rest]
  constructor
  · -- the lines that ask for data stand behind the line that loads the package
    intro h line hline other hinstall
    have hmem := (layout.mem_rest_iff (not_marked_of_installs hinstall)).mpr hline
    have hback := (List.pairwise_append.mp h).2.1
    exact (List.pairwise_append.mp hback).2.2 load himport line hmem ⟨package, hload⟩
      ⟨other, hinstall⟩
  · intro h
    have hfront : ∀ line ∈ layout.setup ++ layout.installs, ∀ package, ¬ Loads package line := by
      intro line hline other hother
      rcases List.mem_append.mp hline with hmem | hmem
      · exact notMem_of_head? layout.head?_setup (Loads.head? hother) (by decide) hmem
      · exact notMem_of_head? (layout.head?_installs htemplates) (Loads.head? hother) (by decide)
          hmem
    have hback : ∀ line ∈ layout.imports ++ layout.rest, ∀ package, ¬ Installs package line := by
      intro line hline other hother
      rcases List.mem_append.mp hline with hmem | hmem
      · exact notMem_of_head? (layout.head?_imports htemplates) (Installs.head? hother) (by decide)
          hmem
      · exact h line ((layout.mem_rest_iff (not_marked_of_installs hother)).mp hmem) other hother
    rw [InstallsFirst, List.pairwise_append]
    refine ⟨List.pairwise_of_forall_mem_list ?_, List.pairwise_of_forall_mem_list ?_, ?_⟩
    · rintro line hline - - ⟨other, hother⟩
      exact absurd hother (hfront line hline other)
    · rintro - - line hline - ⟨other, hother⟩
      exact hback line hline other hother
    · rintro line hline - - ⟨other, hother⟩
      exact absurd hother (hfront line hline other)

end Layout

/-! ## Packages in scripts -/

/-- The packages of a script: no package twice, the base packages in the order in which they first
    occur, and behind them the package for mixed effects if a mixed model adds it. -/
structure PackagesInOrder (g : Generator) : Prop where
  nodup : g.packages.Nodup
  mem_iff : ∀ package, package ∈ g.packages ↔ package ∈ g.options.basePackages ∨
    (g.model.isMixed ∧ package = mixedEffectsPackage)
  order : ∃ base, (∀ package ∈ base, package ∈ g.options.basePackages) ∧
    (base.Pairwise fun p q => g.options.basePackages.idxOf p < g.options.basePackages.idxOf q) ∧
    g.packages = base ++
      if g.model.isMixed ∧ mixedEffectsPackage ∉ g.options.basePackages then [mixedEffectsPackage]
      else []

theorem packagesInOrder (g : Generator) : g.PackagesInOrder where
  nodup := nodup_firstOccurrences _ _
  mem_iff _ := mem_packages_iff
  order := ⟨_, fun _ h => (mem_firstOccurrences.mp h).1, pairwise_firstOccurrences _ _,
    packages_eq g⟩

/-- Each package of a script has one line that installs it and one that loads it, the former stand
    in front of the latter, and both in front of the call that fits the model. -/
structure Lists (g : Generator) (text : String) : Prop where
  once : ∀ package ∈ g.packages, ∃ install load, Installs package install ∧ Loads package load ∧
    (Text.lines text).count install = 1 ∧ (Text.lines text).count load = 1
  installsFirst : InstallsFirst (Text.lines text)
  call_last : ∃ front call, g.modeling = .ok call ∧ Text.lines text = front ++ Text.lines call ∧
    ∀ line ∈ Text.lines call, ∀ package, ¬ Installs package line ∧ ¬ Loads package line

theorem Layout.call_last {text : String} (layout : Layout g text) :
    ∃ front call, g.modeling = .ok call ∧ Text.lines text = front ++ Text.lines call ∧
      ∀ line ∈ Text.lines call, ∀ package, ¬ Installs package line ∧ ¬ Loads package line := by
  refine ⟨layout.setup ++ layout.installs ++ layout.imports ++ "" :: (g.asked ++
    [layout.statement, ""]), layout.call, layout.modeling_eq, by simp [layout.lines_eq], ?_⟩
  intro line hline package
  have hmarked := layout.marked_call line hline
  exact ⟨fun h => not_marked_of_installs h hmarked, fun h => not_marked_of_loads h hmarked⟩

/-- A script with packages lists them iff no line that asks for data installs or loads one. -/
theorem Layout.lists_iff {text : String} (layout : Layout g text)
    (htemplates : g.templates = .builtin) (hpackages : g.packages ≠ []) :
    g.Lists text ↔ ∀ line ∈ g.asked, (∀ package, ¬ Installs package line) ∧
      ∀ package ∈ g.packages, ¬ Loads package line := by
  obtain ⟨first, hfirst⟩ := List.exists_mem_of_ne_nil g.packages hpackages
  have hinstallsFirst := layout.installsFirst_iff htemplates hfirst
  constructor
  · intro h line hline
    refine ⟨hinstallsFirst.mp h.installsFirst line hline, fun package hpackage hload => ?_⟩
    obtain ⟨-, load, -, hload', -, hone⟩ := h.once package hpackage
    obtain ⟨other, hother, hcount⟩ := layout.exists_count_load htemplates hpackage
    obtain rfl : load = line := Except.ok.inj (hload'.symm.trans hload)
    obtain rfl : other = load := Except.ok.inj (hother.symm.trans hload)
    have hpos := List.count_pos_iff.mpr hline
    omega
  · intro h
    refine ⟨fun package hpackage => ?_, hinstallsFirst.mpr fun line hline => (h line hline).1,
      layout.call_last⟩
    obtain ⟨install, hinstall, hinstalls⟩ := layout.exists_count_install htemplates hpackage
    obtain ⟨load, hload, hloads⟩ := layout.exists_count_load htemplates hpackage
    refine ⟨install, load, hinstall, hload, ?_, ?_⟩
    · rw [hinstalls, List.count_eq_zero.mpr fun hmem => (h _ hmem).1 package hinstall]
    · rw [hloads, List.count_eq_zero.mpr fun hmem => (h _ hmem).2 package hpackage hload]

/-- A placeholder of one line asks in a comment. -/
theorem asked_lists_nothing (h : g.data = none → '\n' ∉ g.options.placeholder.toList)
    {line : String} (hline : line ∈ g.asked) (package : String) :
    ¬ Installs package line ∧ ¬ Loads package line := by
  have hhead : line.toList.head? = some '#' := by
    cases hdata : g.data with
    | some source => simp [asked, hdata] at hline
    | none =>
      have hcomment := mt newline_mem_reminder_iff.mp (h hdata)
      simp only [asked, hdata, Text.lines_of_notMem hcomment, List.mem_singleton] at hline
      simp [hline, reminder]
  refine ⟨fun hinstall => ?_, fun hload => ?_⟩
  · rw [Installs.head? hinstall] at hhead
    exact absurd hhead (by decide)
  · rw [Loads.head? hload] at hhead
    exact absurd hhead (by decide)

/-- **Every package of a script is installed once and loaded once, in order.** The packages are in
    order, and the preamble is the lines of the set-up, those that install them and those that load
    them, if the templates have them all. With the built-in templates and accepted options the
    script of a mixed model lists its packages iff no line that asks for data installs or loads one,
    so whenever a data file is given or the placeholder has no line feed. -/
theorem script_listsPackages_iff (g : Generator) :
    g.PackagesInOrder ∧
    (∀ text, g.preamble = .ok text ↔ ∃ setup installs imports,
      g.templates.category "setup" = .ok setup ∧ g.PackageLines "installs" installs ∧
        g.PackageLines "imports" imports ∧
        text = String.join ((setup.map (·.text) ++ installs ++ imports).map (· ++ "\n")) ++ "\n") ∧
    ∀ d c text, g.templates = .builtin → Model.ofDescription d c = .ok g.model →
      g.options.check = .ok () → g.fittingFunction = .glmer → g.script = .ok text →
        mixedEffectsPackage ∈ g.packages ∧
        (g.Lists text ↔ ∀ line ∈ g.asked, (∀ package, ¬ Installs package line) ∧
          ∀ package ∈ g.packages, ¬ Loads package line) ∧
        ((g.data = none → '\n' ∉ g.options.placeholder.toList) → g.Lists text) := by
  refine ⟨packagesInOrder g, fun text => ?_, ?_⟩
  · rw [preamble_eq_ok_iff]
    simp only [sectionText, eq_comm]
  · intro d c text htemplates hmodel hoptions hfunction hscript
    have hmixed : g.model.isMixed := by
      by_contra h
      simp [fittingFunction, h] at hfunction
    have hmem : mixedEffectsPackage ∈ g.packages := mem_packages_iff.mpr (Or.inr ⟨hmixed, rfl⟩)
    obtain ⟨layout⟩ := nonempty_layout htemplates hoptions
      (Validation.wellNamed_of_ofDescription hmodel) hscript
    have hlists := layout.lists_iff htemplates (List.ne_nil_of_mem hmem)
    refine ⟨hmem, hlists, fun hplaceholder => hlists.mpr fun line hline => ?_⟩
    have hnothing := asked_lists_nothing hplaceholder hline
    exact ⟨fun package => (hnothing package).1, fun package _ => (hnothing package).2⟩

/-- A mixed model whose base packages name its package already, and twice. -/
theorem script_listsPackages_iff_repeated :
    let options := { ScriptOptions.default with basePackages := ["lme4", "tidyverse", "lme4"] }
    options.check = .ok () ∧ ∃ model text,
      Model.ofDescription Formula.pigWeights .default = .ok model ∧
        (⟨model, none, .builtin, options⟩ : Generator).fittingFunction = .glmer ∧
        (⟨model, none, .builtin, options⟩ : Generator).script = .ok text ∧
        (⟨model, none, .builtin, options⟩ : Generator).packages = ["lme4", "tidyverse"] ∧
        (⟨model, none, .builtin, options⟩ : Generator).Lists text := by
  intro options
  have hoptions : options.check = .ok () := by decide +kernel
  have hplaceholder : '\n' ∉ options.placeholder.toList := by decide
  obtain ⟨model, hmodel, hfunction, hpackages, text, hscript⟩ : ∃ model,
      Model.ofDescription Formula.pigWeights .default = .ok model ∧
        (⟨model, none, .builtin, options⟩ : Generator).fittingFunction = .glmer ∧
        (⟨model, none, .builtin, options⟩ : Generator).packages = ["lme4", "tidyverse"] ∧
        ∃ text, (⟨model, none, .builtin, options⟩ : Generator).script = .ok text :=
    ⟨_, rfl, rfl, rfl, _, rfl⟩
  obtain ⟨-, -, hlists⟩ := script_listsPackages_iff ⟨model, none, .builtin, options⟩
  obtain ⟨-, -, hlists⟩ := hlists _ _ text rfl hmodel hoptions hfunction hscript
  exact ⟨hoptions, model, text, hmodel, hfunction, hscript, hpackages,
    hlists fun _ => hplaceholder⟩

/-- A placeholder with line feeds loads a package a second time. -/
theorem script_loads_again :
    let options := { ScriptOptions.default with placeholder := "PATH\nlibrary(lme4)\n#" }
    options.check = .ok () ∧ ∃ model text,
      Model.ofDescription Formula.pigWeights .default = .ok model ∧
        (⟨model, none, .builtin, options⟩ : Generator).fittingFunction = .glmer ∧
        (⟨model, none, .builtin, options⟩ : Generator).script = .ok text ∧
        (Text.lines text).count "library(lme4)" = 2 ∧
        ¬ (⟨model, none, .builtin, options⟩ : Generator).Lists text := by
  intro options
  have hoptions : options.check = .ok () := by decide +kernel
  have hasked : Text.lines (reminder options.placeholder) = ["# Replace 'PATH", "library(lme4)",
      "#' with the path to your data file before running this script."] := by decide +kernel
  obtain ⟨model, hmodel, hfunction, hmem, text, hscript⟩ : ∃ model,
      Model.ofDescription Formula.pigWeights .default = .ok model ∧
        (⟨model, none, .builtin, options⟩ : Generator).fittingFunction = .glmer ∧
        mixedEffectsPackage ∈ (⟨model, none, .builtin, options⟩ : Generator).packages ∧
        ∃ text, (⟨model, none, .builtin, options⟩ : Generator).script = .ok text :=
    ⟨_, rfl, rfl, by decide +kernel, _, rfl⟩
  obtain ⟨layout⟩ := nonempty_layout (g := ⟨model, none, .builtin, options⟩) rfl hoptions
    (Validation.wellNamed_of_ofDescription hmodel) hscript
  obtain ⟨load, hload, hcount⟩ := layout.exists_count_load rfl hmem
  obtain rfl : "library(lme4)" = load := Except.ok.inj hload
  change (Text.lines text).count _ =
    1 + (Text.lines (reminder options.placeholder)).count _ at hcount
  rw [hasked] at hcount
  refine ⟨hoptions, model, text, hmodel, hfunction, hscript, hcount, fun h => ?_⟩
  have hmember : "library(lme4)" ∈ Text.lines (reminder options.placeholder) := by
    rw [hasked]
    decide
  have hnothing := (layout.lists_iff rfl (List.ne_nil_of_mem hmem)).mp h _ hmember
  exact hnothing.2 mixedEffectsPackage hmem hload

end Generator

end FitScript
