import FitScript.Proofs.Script.Call
import FitScript.Proofs.Script.Placeholder
import FitScript.Proofs.Text.Lines

/-!
# Lines of scripts

Which line of a script from the built-in templates is of which kind.

* `TemplateTable.Installs`, `TemplateTable.Loads`: the lines of packages.
* `Marked`: what no line of a package is, and every line of the other statements is, whatever the
  names, the separator of the terms and the path of the data in them.
* `Layout`, `nonempty_layout`: so a script is lines of packages, then lines that ask for a data
  file, if none is given, and else marked lines.
-/

namespace FitScript

/-! ## Lines of packages -/

namespace TemplateTable

/-- A line of the built-in table that installs a package. -/
def Installs (package line : String) : Prop :=
  builtin.fragment "installs" package = .ok line

/-- A line of the built-in table that loads a package. -/
def Loads (package line : String) : Prop :=
  builtin.fragment "imports" package = .ok line

/-- What holds of all lines of a category holds of the one for a package. -/
theorem of_fragment {p : String → Prop} {category key line : String} {fragments : List Fragment}
    (hcategory : builtin.categories.lookup category = some fragments)
    (hall : ∀ found ∈ fragments, p found.text) (h : builtin.fragment category key = .ok line) :
    p line := by
  obtain ⟨others, hothers, found, hfound, -, rfl⟩ := exists_mem_of_fragment h
  obtain rfl : fragments = others := Option.some.inj (hcategory.symm.trans hothers)
  exact hall found hfound

/-- The first character of a line that installs a package. -/
theorem Installs.head? {package line : String} (h : Installs package line) :
    line.toList.head? = some 'i' :=
  of_fragment (p := fun line => line.toList.head? = some 'i') rfl (by decide +kernel) h

/-- The first character of a line that loads a package. -/
theorem Loads.head? {package line : String} (h : Loads package line) :
    line.toList.head? = some 'l' :=
  of_fragment (p := fun line => line.toList.head? = some 'l') rfl (by decide +kernel) h

end TemplateTable

/-! ## Lines of statements -/

namespace Generator

open TemplateTable

/-- Texts that stand in the statements of a script, but in no line of a package. -/
def marks : List String :=
  [" <- ", "|", ", family = "]

/-- A line that opens no parenthesis, or has the mark of a statement. -/
def Marked (line : String) : Prop :=
  '(' ∈ line.toList → ∃ mark ∈ marks, mark.toList <:+: line.toList

instance (line : String) : Decidable (Marked line) :=
  inferInstanceAs (Decidable (_ → _))

theorem not_marked_of_installs {package line : String} (h : Installs package line) :
    ¬ Marked line :=
  of_fragment (p := fun line => ¬ Marked line) rfl (by decide +kernel) h

theorem not_marked_of_loads {package line : String} (h : Loads package line) :
    ¬ Marked line :=
  of_fragment (p := fun line => ¬ Marked line) rfl (by decide +kernel) h

theorem Marked.append {x y : String} (hx : Marked x) (hy : Marked y) : Marked (x ++ y) := by
  unfold Marked
  rw [String.toList_append, List.mem_append]
  rintro (h | h)
  · obtain ⟨mark, hmark, hinfix⟩ := hx h
    exact ⟨mark, hmark, hinfix.trans (List.prefix_append _ _).isInfix⟩
  · obtain ⟨mark, hmark, hinfix⟩ := hy h
    exact ⟨mark, hmark, hinfix.trans (List.suffix_append _ _).isInfix⟩

theorem marked_of_notMem {line : String} (h : '(' ∉ line.toList) : Marked line :=
  fun hmem => absurd hmem h

theorem marked_of_mark {mark : String} (hmark : mark ∈ marks) (before after : String) :
    Marked (before ++ mark ++ after) :=
  fun _ => ⟨mark, hmark, before.toList, after.toList, by simp⟩

/-- A term has no parenthesis, or the bar of a random effect. -/
theorem marked_of_mem_terms {model : Model} (hn : model.WellNamed) {term : String}
    (h : term ∈ model.terms) : Marked term := by
  rw [Formula.terms_eq hn, List.mem_append] at h
  rcases h with h | h
  · refine marked_of_notMem fun hmem => ?_
    exact absurd ((Formula.isNameChar_of_mem_variables hn h).2 _ hmem) (by decide)
  · obtain ⟨effect, -, rfl⟩ := List.mem_map.mp h
    have hterm : effect.term "+" =
        "(" ++ "+".intercalate ("1" :: effect.slopes) ++ "|" ++ (effect.group ++ ")") := by
      simp only [RandomEffect.term, String.append_assoc]
    rw [hterm]
    exact marked_of_mark (by decide) _ _

/-- A marked text without a line feed is its only line. -/
theorem marked_of_mem_lines {text : String} (hplain : Text.IsPlain text) (h : Marked text) :
    ∀ line ∈ Text.lines text, Marked line := by
  rw [Text.lines_of_notMem (Text.newline_notMem_of_isPlain hplain), List.forall_mem_singleton]
  exact h

/-- The lines of a right-hand side are marked, wherever its separator breaks it. -/
theorem marked_of_mem_lines_rightHandSide {model : Model} (hn : model.WellNamed) :
    ∀ line ∈ Text.lines model.rightHandSide, Marked line := by
  refine Text.forall_lines_intercalate (fun _ _ => Marked.append) ?_ (Formula.terms_ne_nil hn)
    fun term hterm =>
      marked_of_mem_lines (Formula.isPlain_of_mem_terms hn hterm) (marked_of_mem_terms hn hterm)
  -- a line feed in the separator cuts it, but no piece of it opens a parenthesis
  intro line hline
  obtain ⟨front, back, hfront, hback, hseparator⟩ := Formula.exists_separator hn
  refine marked_of_notMem fun hmem => ?_
  have hopen := Text.mem_of_mem_lines hline hmem
  rw [hseparator, List.mem_append, List.mem_cons] at hopen
  rcases hopen with h | h | h
  · exact absurd (hfront _ h) (by decide)
  · exact absurd h (by decide)
  · exact absurd (hback _ h) (by decide)

variable {g : Generator}

theorem marked_callHead (g : Generator) : Marked g.callHead := by
  have hmark : g.callHead = g.options.modelVariable ++ " <- " ++ (g.fittingFunction.name ++
      "(formula = " ++ g.model.dependent.name ++ " ~ ") := by
    unfold callHead
    simp only [String.append_assoc]
  rw [hmark]
  exact marked_of_mark (by decide) _ _

theorem marked_callTail (g : Generator) : Marked g.callTail := by
  have hmark : g.callTail = "" ++ ", family = " ++ (g.model.family.name ++ "(link = " ++
      g.model.link.literal ++ "), data = " ++ g.options.dataVariable ++ ")") := by
    unfold callTail
    simp only [String.append_assoc, String.empty_append]
  rw [hmark]
  exact marked_of_mark (by decide) _ _

/-- The lines of the call that fits the model are marked. -/
theorem marked_of_mem_lines_modeling (htemplates : g.templates = .builtin)
    (hoptions : g.options.check = .ok ()) (hn : g.model.WellNamed) {call : String}
    (h : g.modeling = .ok call) : ∀ line ∈ Text.lines call, Marked line := by
  have hhead := marked_of_mem_lines (isPlain_callHead hoptions hn) (marked_callHead g)
  have htail := marked_of_mem_lines (isPlain_callTail hoptions) (marked_callTail g)
  have hright := marked_of_mem_lines_rightHandSide hn
  have hcall := Text.forall_lines_append (fun _ _ => Marked.append)
    (Text.forall_lines_append (fun _ _ => Marked.append) hhead hright) htail
  rw [modeling_eq htemplates, Except.ok.injEq] at h
  rw [← h, Text.lines_concat_newline, List.forall_mem_append, List.forall_mem_singleton]
  exact ⟨hcall, marked_of_notMem (by decide)⟩

/-! ## Lines of scripts -/

theorem sectionText_cons (line : String) (rest : List String) :
    sectionText (line :: rest) = line ++ "\n" ++ sectionText rest := by
  apply String.toList_inj.mp
  simp [toList_sectionText_cons]

/-- A section with a text behind it has its lines, an empty one, and the lines of that text. -/
theorem lines_sectionText_append {contents : List String}
    (h : ∀ line ∈ contents, '\n' ∉ line.toList) (rest : String) :
    Text.lines (sectionText contents ++ rest) = contents ++ "" :: Text.lines rest := by
  induction contents with
  | nil => exact Text.lines_append_newline "" rest
  | cons line contents ih =>
    rw [List.forall_mem_cons] at h
    rw [sectionText_cons, String.append_assoc, Text.lines_append_newline,
      Text.lines_of_notMem h.1, ih h.2, List.singleton_append, List.cons_append]

/-- The lines in which a script asks for a data file, if none is given. -/
def asked (g : Generator) : List String :=
  match g.data with
  | some _ => []
  | none => Text.lines (reminder g.options.placeholder)

/-- The statement that reads the data is marked, and stays on its line. -/
theorem marked_readStatement (hoptions : g.options.check = .ok ()) (path : String) :
    Marked (g.options.dataVariable ++ " <- read.csv(" ++ Literal.write path ++ ")") ∧
      '\n' ∉ (g.options.dataVariable ++ " <- read.csv(" ++ Literal.write path ++ ")").toList := by
  have hmark : g.options.dataVariable ++ " <- read.csv(" ++ Literal.write path ++ ")" =
      g.options.dataVariable ++ " <- " ++ ("read.csv(" ++ Literal.write path ++ ")") := by
    rw [show " <- read.csv(" = " <- " ++ "read.csv(" from rfl]
    simp only [String.append_assoc]
  refine ⟨?_, (readsInto_write (ScriptOptions.isSyntactic_of_check hoptions).1 path).1⟩
  rw [hmark]
  exact marked_of_mark (by decide) _ _

/-- The lines of the section that reads the data, in front of a text. -/
theorem exists_lines_loading (htemplates : g.templates = .builtin)
    (hoptions : g.options.check = .ok ()) {text : String} (h : g.loading = .ok text) :
    ∃ statement, Marked statement ∧ ∀ rest,
      Text.lines (text ++ rest) = g.asked ++ statement :: "" :: Text.lines rest := by
  cases hdata : g.data with
  | some source =>
    rw [loading_builtin htemplates hdata, Except.ok.injEq] at h
    obtain ⟨hmarked, hline⟩ := marked_readStatement hoptions source.path.display
    refine ⟨_, hmarked, fun rest => ?_⟩
    have htext : text = sectionText [g.options.dataVariable ++ " <- read.csv(" ++
        Literal.write source.path.display ++ ")"] := by
      apply String.toList_inj.mp
      simp [← h, toList_sectionText, DataSource.literal]
    rw [htext, lines_sectionText_append (List.forall_mem_singleton.mpr hline), asked, hdata]
    rfl
  | none =>
    rw [loading_placeholder htemplates hdata, Except.ok.injEq] at h
    obtain ⟨hmarked, hline⟩ := marked_readStatement hoptions g.options.placeholder
    refine ⟨_, hmarked, fun rest => ?_⟩
    rw [← h, sectionText_cons, String.append_assoc, Text.lines_append_newline,
      lines_sectionText_append (List.forall_mem_singleton.mpr hline), asked, hdata]
    rfl

/-- The lines of the set-up all start with one character. -/
theorem head?_of_setup {setup : List Fragment}
    (h : TemplateTable.builtin.category "setup" = .ok setup) :
    ∀ line ∈ setup.map (·.text), line.toList.head? = some 'o' := by
  cases h
  decide +kernel

/-- The lines of a script from the built-in templates, by their kinds: the set-up, the lines that
    install packages, those that load them, those that ask for a data file, the statement that reads
    it, and the call that fits the model. -/
structure Layout (g : Generator) (text : String) where
  setup : List String
  installs : List String
  imports : List String
  statement : String
  call : String
  head?_setup : ∀ line ∈ setup, line.toList.head? = some 'o'
  packageLines_installs : g.PackageLines "installs" installs
  packageLines_imports : g.PackageLines "imports" imports
  marked_statement : Marked statement
  marked_call : ∀ line ∈ Text.lines call, Marked line
  modeling_eq : g.modeling = .ok call
  lines_eq : Text.lines text = (setup ++ installs) ++
    (imports ++ ("" :: (g.asked ++ (statement :: "" :: Text.lines call))))

theorem nonempty_layout (htemplates : g.templates = .builtin) (hoptions : g.options.check = .ok ())
    (hn : g.model.WellNamed) {text : String} (h : g.script = .ok text) :
    Nonempty (Layout g text) := by
  obtain ⟨preamble, loading, call, hpreamble, hloading, hcall, rfl⟩ := script_eq_ok_iff.mp h
  obtain ⟨setup, installs, imports, hsetup, hinstalls, himports, rfl⟩ :=
    preamble_eq_ok_iff.mp hpreamble
  obtain ⟨statement, hstatement, hlines⟩ := exists_lines_loading htemplates hoptions hloading
  rw [htemplates] at hsetup
  obtain ⟨hline, -⟩ := isLine_of_preamble htemplates hsetup hinstalls himports
  refine ⟨setup.map (·.text), installs, imports, statement, call, head?_of_setup hsetup, hinstalls,
    himports, hstatement, marked_of_mem_lines_modeling htemplates hoptions hn hcall, hcall, ?_⟩
  rw [String.append_assoc, List.append_assoc (setup.map (·.text)),
    lines_sectionText_append (fun line hmem => (hline line hmem).2), hlines]
  simp only [List.append_assoc]

end Generator

end FitScript
