import FitScript.Proofs.DataSource.Path
import FitScript.Proofs.Formula.Reading
import FitScript.Proofs.Literal.Reading
import FitScript.Proofs.Script.Builtin

/-!
# What a script determines

Two generators with one script fit the same model to the same data. The sections are taken off
the front of the script one after another: each of them tells what it says and where it ends.

* `Generator.Complete`: a generator whose parts passed their checks.
* `Generator.Agree`: two generators that fit the same model to the same data.
* `preamble_append_inj`, `loading_append_inj`, `modeling_inj`: what the sections determine.
* `agree_of_script`: what the script determines.
-/

namespace FitScript

/-! ## Names -/

theorem Family.mem_all (family : Family) : family ∈ Family.all := by
  cases family <;> decide

theorem Family.name_injective : Function.Injective Family.name := by
  intro a b h
  exact List.inj_on_of_nodup_map (by decide) a.mem_all b.mem_all h

theorem Link.mem_all (link : Link) : link ∈ Link.all := by
  cases link <;> decide

theorem Link.name_injective : Function.Injective Link.name := by
  intro a b h
  exact List.inj_on_of_nodup_map (by decide) a.mem_all b.mem_all h

theorem FittingFunction.name_injective : Function.Injective FittingFunction.name := by
  intro f f' h
  cases f <;> cases f' <;> first | rfl | exact absurd h (by decide)

/-- Options that pass their check have variables with syntactic names. -/
theorem ScriptOptions.isSyntactic_of_check {options : ScriptOptions}
    (h : options.check = .ok ()) :
    Name.isSyntactic options.dataVariable ∧ Name.isSyntactic options.modelVariable := by
  unfold check at h
  split at h
  next => exact absurd h (by simp)
  next hdata =>
    split at h
    next => exact absurd h (by simp)
    next hmodel => exact ⟨by simpa using hdata, by simpa using hmodel⟩

namespace Generator

/-- A generator as it is built from parts that passed their checks: with the built-in templates,
    a validated model, a data file and options that were accepted. -/
structure Complete (g : Generator) : Prop where
  templates : g.templates = .builtin
  model : ∃ d c, Model.ofDescription d c = .ok g.model
  data : ∃ path source, DataSource.ofPath path = .ok source ∧ g.data = some source
  options : g.options.check = .ok ()

/-- Two generators that fit the same model to the same data, with the same packages, and bind both
    to the same names. -/
structure Agree (g g' : Generator) : Prop where
  packages : g.packages = g'.packages
  dataVariable : g.options.dataVariable = g'.options.dataVariable
  path : g.data.bind (·.path.text?) = g'.data.bind (·.path.text?)
  modelVariable : g.options.modelVariable = g'.options.modelVariable
  fittingFunction : g.fittingFunction = g'.fittingFunction
  dependent : g.model.dependent.name = g'.model.dependent.name
  terms : g.model.terms = g'.model.terms
  family : g.model.family = g'.model.family
  link : g.model.link = g'.model.link

variable {g g' : Generator}

theorem Complete.wellNamed (hg : g.Complete) : g.model.WellNamed := by
  obtain ⟨d, c, h⟩ := hg.model
  exact Validation.wellNamed_of_ofDescription h

/-! ## The preamble -/

section Preamble

variable {text text' : String}

theorem PackageLines.isLine {category : String} {lines : List String}
    (htemplates : g.templates = .builtin) (h : g.PackageLines category lines) :
    ∀ line ∈ lines, IsLine line := by
  intro line hline
  obtain ⟨package, -, hfragment⟩ := Outcome.exists_of_mem_right h hline
  rw [htemplates] at hfragment
  exact TemplateTable.isLine_of_fragment hfragment

/-- The lines that install packages tell the packages. -/
theorem packages_eq_of_installs {lines : List String} (htemplates : g.templates = .builtin)
    (htemplates' : g'.templates = .builtin) (h : g.PackageLines "installs" lines)
    (h' : g'.PackageLines "installs" lines) : g.packages = g'.packages := by
  have hunique : Relator.LeftUnique fun package line =>
      TemplateTable.builtin.fragment "installs" package = .ok line :=
    fun _ _ _ => TemplateTable.package_eq_of_installs
  unfold PackageLines at h h'
  rw [htemplates] at h
  rw [htemplates'] at h'
  exact List.left_unique_forall₂' hunique h h'

/-- A preamble from the built-in templates starts with the same lines in all scripts, and what
    follows them is in equal parts for installing and for loading. -/
theorem isLine_of_preamble (htemplates : g.templates = .builtin) {setup : List Fragment}
    (hsetup : TemplateTable.builtin.category "setup" = .ok setup) {installs imports : List String}
    (hinstalls : g.PackageLines "installs" installs) (himports : g.PackageLines "imports" imports) :
    (∀ line ∈ setup.map (·.text) ++ (installs ++ imports), IsLine line) ∧
      installs.length = imports.length := by
  refine ⟨?_, (List.Forall₂.length_eq hinstalls).symm.trans (List.Forall₂.length_eq himports)⟩
  rw [List.forall_mem_append, List.forall_mem_append]
  exact ⟨TemplateTable.isLine_of_category hsetup, hinstalls.isLine htemplates,
    himports.isLine htemplates⟩

/-- **The preamble tells the packages**, and where it ends. -/
theorem preamble_append_inj (htemplates : g.templates = .builtin)
    (htemplates' : g'.templates = .builtin) (h : g.preamble = .ok text)
    (h' : g'.preamble = .ok text') {x y : List Char}
    (heq : text.toList ++ x = text'.toList ++ y) : g.packages = g'.packages ∧ x = y := by
  obtain ⟨setup, installs, imports, hsetup, hinstalls, himports, rfl⟩ := preamble_eq_ok_iff.mp h
  obtain ⟨setup', installs', imports', hsetup', hinstalls', himports', rfl⟩ :=
    preamble_eq_ok_iff.mp h'
  rw [htemplates] at hsetup
  rw [htemplates'] at hsetup'
  obtain rfl : setup = setup' := Except.ok.inj (hsetup.symm.trans hsetup')
  obtain ⟨hlines, hhalves⟩ := isLine_of_preamble htemplates hsetup hinstalls himports
  obtain ⟨hlines', hhalves'⟩ := isLine_of_preamble htemplates' hsetup' hinstalls' himports'
  rw [List.append_assoc, List.append_assoc] at heq
  obtain ⟨hsame, hxy⟩ := sectionText_append_inj hlines hlines' heq
  have hrest := List.append_cancel_left hsame
  have hlength : installs.length = installs'.length := by
    have hboth := congrArg List.length hrest
    rw [List.length_append, List.length_append] at hboth
    omega
  obtain ⟨rfl, -⟩ := List.append_inj hrest hlength
  exact ⟨packages_eq_of_installs htemplates htemplates' hinstalls hinstalls', hxy⟩

end Preamble

/-! ## Loading and modeling -/

section Statements

variable {text text' : String}

theorem Complete.notMem_variables (hg : g.Complete) :
    ' ' ∉ g.options.dataVariable.toList ∧ ' ' ∉ g.options.modelVariable.toList := by
  obtain ⟨hdata, hmodel⟩ := ScriptOptions.isSyntactic_of_check hg.options
  exact ⟨Name.notMem_of_isSyntactic hdata (by decide), Name.notMem_of_isSyntactic hmodel (by decide)⟩

/-- The section that reads the data, cut where its parts end. -/
theorem Complete.exists_toList_loading (hg : g.Complete) (h : g.loading = .ok text) :
    ∃ path, g.data.bind (·.path.text?) = some path ∧
      text.toList = g.options.dataVariable.toList ++ ' ' :: ("<- read.csv(".toList ++
        ((Literal.write path).toList ++ ")\n\n".toList)) := by
  obtain ⟨_, source, hsource, hdata⟩ := hg.data
  obtain ⟨path, hpath, hliteral⟩ := DataSource.exists_text_of_ofPath hsource
  refine ⟨path, by rw [hdata, Option.bind_some, hpath], ?_⟩
  rw [loading_builtin hg.templates hdata, hliteral, Except.ok.injEq] at h
  simp [← h]

/-- **The loading section tells the data**, the variable they are bound to, and where it ends. -/
theorem loading_append_inj (hg : g.Complete) (hg' : g'.Complete) (h : g.loading = .ok text)
    (h' : g'.loading = .ok text') {x y : List Char}
    (heq : text.toList ++ x = text'.toList ++ y) :
    g.options.dataVariable = g'.options.dataVariable ∧
      g.data.bind (·.path.text?) = g'.data.bind (·.path.text?) ∧ x = y := by
  obtain ⟨path, hpath, htext⟩ := hg.exists_toList_loading h
  obtain ⟨path', hpath', htext'⟩ := hg'.exists_toList_loading h'
  simp only [htext, htext', List.append_assoc, List.cons_append] at heq
  obtain ⟨hvariable, hrest⟩ :=
    Text.append_cons_inj hg.notMem_variables.1 hg'.notMem_variables.1 heq
  obtain ⟨hsame, hend⟩ := Literal.write_append_inj (List.append_cancel_left hrest)
  exact ⟨String.toList_inj.mp hvariable, by rw [hpath, hpath', hsame],
    List.append_cancel_left hend⟩

/-- The section that fits the model, cut where its parts end. -/
theorem Complete.toList_modeling (hg : g.Complete) (h : g.modeling = .ok text) :
    text.toList = g.options.modelVariable.toList ++ ' ' :: ("<- ".toList ++
      (g.fittingFunction.name.toList ++ '(' :: ("formula = ".toList ++
      (g.model.formula.toList ++ ',' :: (" family = ".toList ++
      (g.model.family.name.toList ++ '(' :: ("link = ".toList ++
      ((Literal.write g.model.link.name).toList ++
        ("), data = " ++ g.options.dataVariable ++ ")\n").toList)))))))) := by
  rw [modeling_builtin hg.templates, Except.ok.injEq] at h
  simp [← h, Link.literal]

/-- **The modeling section tells the model**, and the variable that the fit is bound to. -/
theorem modeling_inj (hg : g.Complete) (hg' : g'.Complete) (h : g.modeling = .ok text)
    (h' : g'.modeling = .ok text) :
    g.options.modelVariable = g'.options.modelVariable ∧
      g.fittingFunction = g'.fittingFunction ∧ g.model.formula = g'.model.formula ∧
      g.model.family = g'.model.family ∧ g.model.link = g'.model.link := by
  have hfunction : ∀ f : FittingFunction, '(' ∉ f.name.toList := by
    intro f
    cases f <;> decide
  have hfamily : ∀ family : Family, '(' ∉ family.name.toList := by
    intro family
    cases family <;> decide
  have hformula : ∀ {g : Generator}, g.Complete → ',' ∉ g.model.formula.toList := fun hg =>
    Formula.notMem_formula hg.wellNamed (by decide) (by decide) (by decide) (by decide)
  have heq := (hg.toList_modeling h).symm.trans (hg'.toList_modeling h')
  -- each part is told by the character behind it
  obtain ⟨hvariable, h1⟩ := Text.append_cons_inj hg.notMem_variables.2 hg'.notMem_variables.2 heq
  obtain ⟨hf, h2⟩ :=
    Text.append_cons_inj (hfunction _) (hfunction _) (List.append_cancel_left h1)
  obtain ⟨hform, h3⟩ :=
    Text.append_cons_inj (hformula hg) (hformula hg') (List.append_cancel_left h2)
  obtain ⟨hfam, h4⟩ := Text.append_cons_inj (hfamily _) (hfamily _) (List.append_cancel_left h3)
  obtain ⟨hlink, -⟩ := Literal.write_append_inj (List.append_cancel_left h4)
  rw [String.toList_inj] at hvariable hf hform hfam
  exact ⟨hvariable, FittingFunction.name_injective hf, hform, Family.name_injective hfam,
    Link.name_injective hlink⟩

end Statements

/-! ## The script -/

/-- **A script determines what is fitted to which data.** Two complete generators with the same
    script agree on the packages, the data and the model, and on the variables they bind. -/
theorem agree_of_script {text : String} (hg : g.Complete) (hg' : g'.Complete)
    (h : g.script = .ok text) (h' : g'.script = .ok text) : g.Agree g' := by
  obtain ⟨preamble, loading, modeling, hpre, hload, hmod, htext⟩ := script_eq_ok_iff.mp h
  obtain ⟨preamble', loading', modeling', hpre', hload', hmod', htext'⟩ := script_eq_ok_iff.mp h'
  have heq : preamble.toList ++ (loading.toList ++ modeling.toList) =
      preamble'.toList ++ (loading'.toList ++ modeling'.toList) := by
    have := congrArg String.toList (htext.trans htext'.symm)
    simpa using this
  obtain ⟨hpackages, hrest⟩ := preamble_append_inj hg.templates hg'.templates hpre hpre' heq
  obtain ⟨hdata, hpath, hlast⟩ := loading_append_inj hg hg' hload hload' hrest
  obtain rfl : modeling = modeling' := String.toList_inj.mp hlast
  obtain ⟨hmodel, hfunction, hformula, hfamily, hlink⟩ := modeling_inj hg hg' hmod hmod'
  obtain ⟨hdependent, hterms⟩ := Formula.formula_inj hg.wellNamed hg'.wellNamed hformula
  exact ⟨hpackages, hdata, hpath, hmodel, hfunction, hdependent, hterms, hfamily, hlink⟩

/-- One model with two ids, in scripts with two file names. -/
theorem agree_of_script_ids : ∃ g g' : Generator,
    Model.ofDescription Formula.pigWeights .default = .ok g.model ∧
      Model.ofDescription { Formula.pigWeights with id := some "growth" } .default =
        .ok g'.model ∧
      g.options = .default ∧ g'.options = { ScriptOptions.default with fileName := "growth.R" } ∧
      g.data = some ⟨.ofString "pigs.csv"⟩ ∧ (∃ text, g.script = .ok text ∧ g'.script = .ok text) ∧
      g.Agree g' := by
  obtain ⟨model, hmodel⟩ : ∃ model, Model.ofDescription Formula.pigWeights .default = .ok model :=
    ⟨_, rfl⟩
  obtain ⟨model', hmodel'⟩ : ∃ model', Model.ofDescription
      { Formula.pigWeights with id := some "growth" } .default = .ok model' := ⟨_, rfl⟩
  have hpath : DataSource.ofPath (.ofString "pigs.csv") = .ok ⟨.ofString "pigs.csv"⟩ := by
    decide +kernel
  have hoptions : ScriptOptions.default.check = .ok () := by decide +kernel
  have hoptions' : { ScriptOptions.default with fileName := "growth.R" }.check = .ok () := by
    decide +kernel
  have hg : Complete ⟨model, some ⟨.ofString "pigs.csv"⟩, .builtin, .default⟩ :=
    ⟨rfl, ⟨_, _, hmodel⟩, ⟨_, _, hpath, rfl⟩, hoptions⟩
  have hg' : Complete ⟨model', some ⟨.ofString "pigs.csv"⟩, .builtin,
      { ScriptOptions.default with fileName := "growth.R" }⟩ :=
    ⟨rfl, ⟨_, _, hmodel'⟩, ⟨_, _, hpath, rfl⟩, hoptions'⟩
  cases hmodel
  cases hmodel'
  have hscript := script_eq_ok_iff.mpr
    ⟨_, _, _, rfl, loading_builtin hg.templates rfl, modeling_builtin hg.templates, rfl⟩
  have hscript' := script_eq_ok_iff.mpr
    ⟨_, _, _, rfl, loading_builtin hg'.templates rfl, modeling_builtin hg'.templates, rfl⟩
  exact ⟨_, _, rfl, rfl, rfl, rfl, rfl, ⟨_, hscript, hscript'⟩,
    agree_of_script hg hg' hscript hscript'⟩

end Generator

end FitScript
