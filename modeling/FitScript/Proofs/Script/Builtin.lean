import FitScript.Proofs.Script.Sections
import FitScript.Proofs.Template.Rendering
import FitScript.Proofs.Template.Table

/-!
# Scripts from the built-in templates

* `isLine_builtin`: every built-in text is one line.
* `package_eq_of_installs`: a line that installs a package tells the package.
* `loading_builtin`, `modeling_builtin`: the statements that read the data and fit the model.
-/

namespace FitScript

/-! ## Texts of the table -/

namespace TemplateTable

/-- Every built-in text is one line. -/
theorem isLine_builtin : ∀ entry ∈ builtin.categories, ∀ found ∈ entry.2,
    Generator.IsLine found.text := by
  unfold builtin Generator.IsLine
  simp

theorem isLine_of_category {category : String} {fragments : List Fragment}
    (h : builtin.category category = .ok fragments) :
    ∀ line ∈ fragments.map (·.text), Generator.IsLine line := by
  intro line hline
  obtain ⟨found, hfound, rfl⟩ := List.mem_map.mp hline
  obtain ⟨before, after, hentries, -⟩ :=
    List.lookup_eq_some_iff.mp (category_eq_ok_iff.mp h)
  exact isLine_builtin (category, fragments) (by simp [hentries]) found hfound

theorem isLine_of_fragment {category key text : String}
    (h : builtin.fragment category key = .ok text) : Generator.IsLine text := by
  obtain ⟨fragments, hcategory, found, hfound, -, rfl⟩ := exists_mem_of_fragment h
  exact isLine_of_category (category_eq_ok_iff.mpr hcategory) _ (List.mem_map_of_mem hfound)

/-- A built-in line that installs a package tells the package. -/
theorem package_eq_of_installs {package other line : String}
    (h : builtin.fragment "installs" package = .ok line)
    (hother : builtin.fragment "installs" other = .ok line) : package = other :=
  key_eq_of_fragment rfl (by decide) h hother

end TemplateTable

/-! ## Statements -/

namespace Generator

open Template

variable {g : Generator}

/-- The statement that reads the data from a path. -/
theorem readStatement_builtin {template : String}
    (h : TemplateTable.builtin.fragment "loading" "read" = .ok template) (path : String) :
    g.readStatement template path = g.options.dataVariable ++ " <- read.csv(" ++ path ++ ")" := by
  have htext : template.toList =
      tokenText [([], "data".toList), (" <- read.csv(".toList, "path".toList)] ")".toList := by
    cases h
    rfl
  have hdata : List.lookup "data" [("data", g.options.dataVariable), ("path", path)] =
      some g.options.dataVariable := rfl
  have hpath : List.lookup "path" [("data", g.options.dataVariable), ("path", path)] =
      some path := rfl
  unfold readStatement render
  rw [htext, renderChars_tokenText (by decide) (inert_of_notMem (by decide))]
  apply String.toList_inj.mp
  simp only [List.flatMap_cons, List.flatMap_nil, replacement_of_lookup hdata,
    replacement_of_lookup hpath, String.toList_ofList, String.toList_append, List.append_assoc,
    List.nil_append, List.append_nil]

/-- The section that reads the data, if there is a data file. -/
theorem loading_builtin (htemplates : g.templates = .builtin) {source : DataSource}
    (hdata : g.data = some source) :
    g.loading =
      .ok (g.options.dataVariable ++ " <- read.csv(" ++ source.literal ++ ")" ++ "\n\n") := by
  obtain ⟨template, hread⟩ :
      ∃ template, TemplateTable.builtin.fragment "loading" "read" = .ok template := ⟨_, rfl⟩
  unfold loading
  rw [htemplates, hread, hdata]
  show Except.ok (sectionText [g.readStatement template source.literal]) = _
  rw [readStatement_builtin hread]
  simp [sectionText, String.append_assoc]

/-- The tokens of the built-in call of a fitting function. -/
def callTokens (f : FittingFunction) : List (List Char × List Char) :=
  [([], "model".toList),
   ((" <- " ++ f.name ++ "(formula = ").toList, "formula".toList),
   (", family = ".toList, "family".toList),
   ("(link = ".toList, "link".toList),
   ("), data = ".toList, "data".toList)]

theorem exists_call (f : FittingFunction) : ∃ template,
    TemplateTable.builtin.fragment "modeling" f.name = .ok template ∧
      template.toList = tokenText (callTokens f) ")".toList := by
  cases f
  · exact ⟨_, rfl, by simp [tokenText, callTokens, FittingFunction.name]⟩
  · exact ⟨_, rfl, by simp [tokenText, callTokens, FittingFunction.name]⟩

theorem notMem_callTokens (f : FittingFunction) :
    ∀ token ∈ callTokens f, '{' ∉ token.1 ∧ '}' ∉ token.2 := by
  cases f <;> decide

/-- The section that fits the model. -/
theorem modeling_builtin (htemplates : g.templates = .builtin) :
    g.modeling = .ok (g.options.modelVariable ++ " <- " ++ g.fittingFunction.name ++
      "(formula = " ++ g.model.formula ++ ", family = " ++ g.model.family.name ++ "(link = " ++
      g.model.link.literal ++ "), data = " ++ g.options.dataVariable ++ ")" ++ "\n") := by
  obtain ⟨template, hcall, htext⟩ := exists_call g.fittingFunction
  unfold modeling
  rw [htemplates, hcall]
  show Except.ok (render template
    [("model", g.options.modelVariable), ("formula", g.model.formula),
     ("family", g.model.family.name), ("link", g.model.link.literal),
     ("data", g.options.dataVariable)] ++ "\n") = _
  generalize hvalues : [("model", g.options.modelVariable), ("formula", g.model.formula),
    ("family", g.model.family.name), ("link", g.model.link.literal),
    ("data", g.options.dataVariable)] = values
  have hmodel : values.lookup "model" = some g.options.modelVariable := hvalues ▸ rfl
  have hformula : values.lookup "formula" = some g.model.formula := hvalues ▸ rfl
  have hfamily : values.lookup "family" = some g.model.family.name := hvalues ▸ rfl
  have hlink : values.lookup "link" = some g.model.link.literal := hvalues ▸ rfl
  have hdata : values.lookup "data" = some g.options.dataVariable := hvalues ▸ rfl
  unfold render
  rw [htext, renderChars_tokenText (notMem_callTokens _) (inert_of_notMem (by decide))]
  refine congrArg Except.ok (String.toList_inj.mp ?_)
  simp only [callTokens, List.flatMap_cons, List.flatMap_nil, replacement_of_lookup hmodel,
    replacement_of_lookup hformula, replacement_of_lookup hfamily, replacement_of_lookup hlink,
    replacement_of_lookup hdata, String.toList_ofList, String.toList_append, List.append_assoc,
    List.nil_append, List.append_nil]

end Generator

end FitScript
