import FitScript.Proofs.Script.Determinacy

/-!
# Data paths in scripts

A script reads the file that it was given, whatever the characters of its path.

* `DataSource.exists_ofString_of_ofPath`: an accepted path is a text, and the data file has this
  path and no other.
* `loading_readsPath`: the section that reads the data has one literal in it, which is read as the
  path, and the placeholder is not used.
-/

namespace FitScript

namespace DataSource

/-- An accepted path is the path with some text, and the literal of the data file holds it. -/
theorem exists_ofString_of_ofPath {path : FilePath} {source : DataSource}
    (h : ofPath path = .ok source) :
    ∃ text, path = FilePath.ofString text ∧ source.literal = Literal.write text := by
  obtain ⟨text, htext, hliteral⟩ := exists_text_of_ofPath h
  rw [eq_of_ofPath h] at htext
  refine ⟨text, ?_, hliteral⟩
  rw [FilePath.ofString, Text.Utf8.encode_of_decode? htext]

end DataSource

namespace Generator

variable {g : Generator}

/-- **A data path reaches the script unchanged.** The section that reads the data from an accepted
    path is one statement with the literal of the data file, an empty line behind it. Whatever
    follows the literal, it is read as the path and ends where it was written to end. No placeholder
    changes the section. -/
theorem loading_readsPath (htemplates : g.templates = .builtin) {path : FilePath}
    {source : DataSource} (hpath : DataSource.ofPath path = .ok source)
    (hdata : g.data = some source) :
    g.loading = .ok (g.options.dataVariable ++ " <- read.csv(" ++ source.literal ++ ")" ++ "\n\n") ∧
    (∃ text, path = FilePath.ofString text ∧ ∀ rest,
      Literal.read? (source.literal.toList ++ rest) = some (text.toList, rest)) ∧
    ∀ placeholder, { g with options := { g.options with placeholder } }.loading = g.loading := by
  have hloading := loading_builtin htemplates hdata
  obtain ⟨text, htext, hliteral⟩ := DataSource.exists_ofString_of_ofPath hpath
  refine ⟨hloading, ⟨text, htext, fun rest => ?_⟩, fun placeholder => ?_⟩
  · rw [hliteral, Literal.read?_write]
  · rw [hloading]
    exact loading_builtin (g := ⟨g.model, g.data, g.templates, { g.options with placeholder }⟩)
      htemplates hdata

/-- A path with quotes, backslashes, a line feed, tokens of the templates and the placeholder. -/
theorem loading_readsPath_quoted :
    let path := FilePath.ofString "it's\\n\n\\'\x7bdata\x7d\x7bpath\x7d')/PATH_TO_DATA.CSV"
    DataSource.ofPath path = .ok ⟨path⟩ ∧ ∃ model,
      Model.ofDescription Formula.pigWeights .default = .ok model ∧
        ∃ text, (⟨model, some ⟨path⟩, .builtin, .default⟩ : Generator).loading = .ok text ∧
          text = "data <- read.csv('it\\'s\\\\n\\n\\\\\\'\x7bdata\x7d\x7bpath\x7d\\')" ++
            "/PATH_TO_DATA.CSV')\n\n" := by
  intro path
  have hpath : DataSource.ofPath path = .ok ⟨path⟩ := by decide +kernel
  obtain ⟨model, hmodel⟩ : ∃ model, Model.ofDescription Formula.pigWeights .default = .ok model :=
    ⟨_, rfl⟩
  obtain ⟨hloading, -, -⟩ :=
    loading_readsPath (g := ⟨model, some ⟨path⟩, .builtin, .default⟩) rfl hpath rfl
  refine ⟨hpath, model, hmodel, _, hloading, ?_⟩
  show ScriptOptions.default.dataVariable ++ " <- read.csv(" ++ DataSource.literal ⟨path⟩ ++ ")" ++
    "\n\n" = _
  decide +kernel

end Generator

end FitScript
