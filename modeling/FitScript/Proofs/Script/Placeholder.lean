import FitScript.Proofs.Script.Determinacy

/-!
# Placeholders in scripts

Without a data file a script asks for one. The placeholder of the options then stands in it twice:
as it is in a comment, and as a literal in the statement that reads the data.

* `loading_placeholder`: the section with the comment and the statement.
* `Generator.AsksInTwoLines`: a section that is one line of comment, one line with the statement,
  and an empty line.
* `loading_asksInTwoLines_iff`: so is the section of a generator whose options were accepted iff
  there is no line feed in its placeholder.
* `loading_leaves_comment`: with one, what follows it leaves the comment.
-/

namespace FitScript.Generator

open Template

variable {g : Generator}

/-! ## Lines of the section -/

/-- The comment that asks for a data file. -/
def reminder (placeholder : String) : String :=
  "# Replace '" ++ placeholder ++
    "' with the path to your data file before running this script."

/-- A line that is a comment from its first character on. -/
def IsComment (line : String) : Prop :=
  line.toList.head? = some '#' ∧ '\n' ∉ line.toList

/-- A line that reads a file into a variable, the target. The path of the file is one literal, which
    is read as the given text. -/
def ReadsInto (target path line : String) : Prop :=
  '\n' ∉ line.toList ∧ ∃ literal, line = target ++ " <- read.csv(" ++ literal ++ ")" ∧
    Literal.read? literal.toList = some (path.toList, [])

/-- A section of one line of comment, one line that reads the placeholder, and an empty line. -/
def AsksInTwoLines (options : ScriptOptions) (text : String) : Prop :=
  ∃ comment statement, text = sectionText [comment, statement] ∧ IsComment comment ∧
    ReadsInto options.dataVariable options.placeholder statement

/-- The placeholder is copied into the comment. -/
theorem render_reminder {template placeholder : String}
    (h : TemplateTable.builtin.fragment "loading" "replace_path" = .ok template) :
    render template [("placeholder", placeholder)] = reminder placeholder := by
  have htext : template.toList = tokenText [("# Replace '".toList, "placeholder".toList)]
      "' with the path to your data file before running this script.".toList := by
    cases h
    simp [tokenText]
  have hvalue : List.lookup "placeholder" [("placeholder", placeholder)] = some placeholder := rfl
  unfold render
  rw [htext, renderChars_tokenText (by simp) (inert_of_notMem (by decide))]
  apply String.toList_inj.mp
  simp only [List.flatMap_cons, List.flatMap_nil, replacement_of_lookup hvalue, reminder,
    String.toList_ofList, String.toList_append, List.append_assoc, List.append_nil]

/-- The section that asks for a data file. -/
theorem loading_placeholder (htemplates : g.templates = .builtin) (hdata : g.data = none) :
    g.loading = .ok (sectionText [reminder g.options.placeholder, g.options.dataVariable ++
      " <- read.csv(" ++ Literal.write g.options.placeholder ++ ")"]) := by
  obtain ⟨template, hread⟩ :
      ∃ template, TemplateTable.builtin.fragment "loading" "read" = .ok template := ⟨_, rfl⟩
  obtain ⟨comment, hcomment⟩ :
      ∃ comment, TemplateTable.builtin.fragment "loading" "replace_path" = .ok comment := ⟨_, rfl⟩
  unfold loading
  rw [htemplates, hread, hdata, hcomment]
  show Except.ok (sectionText [render comment [("placeholder", g.options.placeholder)],
    g.readStatement template (Literal.write g.options.placeholder)]) = _
  rw [readStatement_builtin hread, render_reminder hcomment]

/-- The statement reads the placeholder, if the variable is a name. -/
theorem readsInto_write {target : String} (h : Name.isSyntactic target) (path : String) :
    ReadsInto target path (target ++ " <- read.csv(" ++ Literal.write path ++ ")") := by
  have hread := Literal.read?_write path []
  rw [List.append_nil] at hread
  refine ⟨?_, Literal.write path, rfl, hread⟩
  simp only [String.toList_append, List.mem_append, not_or]
  exact ⟨⟨⟨Name.notMem_of_isSyntactic h (by decide), by decide⟩, Literal.newline_notMem_write path⟩,
    by decide⟩

/-! ## Line feeds -/

theorem count_newline_sectionText_nil : (sectionText []).toList.count '\n' = 1 :=
  rfl

/-- The line feeds of a section are those of its lines, one behind each, and one at the end. -/
theorem count_newline_sectionText_cons (line : String) (lines : List String) :
    (sectionText (line :: lines)).toList.count '\n' =
      line.toList.count '\n' + 1 + (sectionText lines).toList.count '\n' := by
  rw [toList_sectionText_cons, List.count_append, List.count_cons_self]
  omega

theorem newline_mem_reminder_iff {placeholder : String} :
    '\n' ∈ (reminder placeholder).toList ↔ '\n' ∈ placeholder.toList := by
  simp [reminder]

/-- A section of this form has exactly three line feeds, and no other is left for its comment. -/
theorem asksInTwoLines_iff {options : ScriptOptions} {comment statement : String}
    (hstatement : ReadsInto options.dataVariable options.placeholder statement)
    (hcomment : comment.toList.head? = some '#') :
    AsksInTwoLines options (sectionText [comment, statement]) ↔ '\n' ∉ comment.toList := by
  constructor
  · rintro ⟨comment', statement', hsame, ⟨-, hcomment'⟩, hstatement', -⟩
    have hcount := congrArg (·.toList.count '\n') hsame
    simp only [count_newline_sectionText_cons, count_newline_sectionText_nil,
      List.count_eq_zero.mpr hcomment', List.count_eq_zero.mpr hstatement',
      List.count_eq_zero.mpr hstatement.1] at hcount
    exact List.count_eq_zero.mp (by omega)
  · intro h
    exact ⟨comment, statement, rfl, ⟨hcomment, h⟩, hstatement⟩

/-! ## Sections of accepted options -/

/-- **The placeholder stays in its line iff it has no line feed.** A section that asks for a data
    file is a comment with the placeholder and a statement that reads a file of this name; it is one
    line of comment, one line of code and an empty line iff there is no line feed in the
    placeholder. -/
theorem loading_asksInTwoLines_iff (htemplates : g.templates = .builtin) (hdata : g.data = none)
    (hoptions : g.options.check = .ok ()) :
    ∃ statement, ReadsInto g.options.dataVariable g.options.placeholder statement ∧
      g.loading = .ok (sectionText [reminder g.options.placeholder, statement]) ∧
      (AsksInTwoLines g.options (sectionText [reminder g.options.placeholder, statement]) ↔
        '\n' ∉ g.options.placeholder.toList) := by
  have hstatement := readsInto_write (ScriptOptions.isSyntactic_of_check hoptions).1
    g.options.placeholder
  refine ⟨_, hstatement, loading_placeholder htemplates hdata, ?_⟩
  rw [asksInTwoLines_iff hstatement (by simp [reminder]), newline_mem_reminder_iff]

/-- A placeholder with a quote, a backslash and a token. -/
theorem loading_asksInTwoLines_iff_quoted :
    let options := { ScriptOptions.default with placeholder := "it's \\\x7bdata\x7d" }
    options.check = .ok () ∧ '\n' ∉ options.placeholder.toList ∧
      ∃ model, Model.ofDescription Formula.pigWeights .default = .ok model ∧
        ∃ text, (⟨model, none, .builtin, options⟩ : Generator).loading = .ok text ∧
          AsksInTwoLines options text := by
  intro options
  have hoptions : options.check = .ok () := by decide +kernel
  have hplaceholder : '\n' ∉ options.placeholder.toList := by decide
  obtain ⟨model, hmodel⟩ : ∃ model, Model.ofDescription Formula.pigWeights .default = .ok model :=
    ⟨_, rfl⟩
  obtain ⟨statement, -, htext, hlines⟩ := loading_asksInTwoLines_iff
    (g := ⟨model, none, .builtin, options⟩) rfl rfl hoptions
  exact ⟨hoptions, hplaceholder, model, hmodel, _, htext, hlines.mpr hplaceholder⟩

/-- What follows a line feed in a placeholder leaves the comment: it is code. -/
theorem loading_leaves_comment :
    let options := { ScriptOptions.default with placeholder := "PATH\nquit() #" }
    options.check = .ok () ∧ ∃ model, Model.ofDescription Formula.pigWeights .default = .ok model ∧
      ∃ text, (⟨model, none, .builtin, options⟩ : Generator).loading = .ok text ∧
        ¬ AsksInTwoLines options text ∧
        text = "# Replace 'PATH\nquit() #' with the path to your data file before running " ++
          "this script.\ndata <- read.csv('PATH\\nquit() #')\n\n" := by
  intro options
  have hstatement : ReadsInto options.dataVariable options.placeholder _ :=
    readsInto_write (by decide +kernel) _
  refine ⟨by decide +kernel, _, rfl, _, loading_placeholder rfl rfl, ?_, by decide +kernel⟩
  rw [asksInTwoLines_iff hstatement (by decide)]
  decide

end FitScript.Generator
