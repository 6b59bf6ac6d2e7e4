import FitScript.DataSource
import FitScript.Settings
import FitScript.Template.Builtin

/-!
# Scripts

The R script that fits a model. It has three sections: the preamble installs and loads packages,
the loading section reads the data, and the modeling section calls the fitting function.

* `Generator`: a model with all that shapes its script.
* `Generator.preamble`, `loading` and `modeling`: the sections, or the first missing template.
* `Generator.script`: the sections one after another.
-/

namespace FitScript

/-- The R function that fits a model. -/
inductive FittingFunction where
  /-- For models without random effects. -/
  | glm
  /-- For models with random effects. -/
  | glmer
deriving DecidableEq

/-- The name of a fitting function, under which its call is found among the templates. -/
def FittingFunction.name : FittingFunction → String
  | glm => "glm"
  | glmer => "glmer"

/-- A model with all that shapes its script (`CodeGenerator`). -/
structure Generator where
  model : Model
  /-- The data file; without one, the script reads from a placeholder. -/
  data : Option DataSource
  templates : TemplateTable
  options : ScriptOptions
deriving DecidableEq

/-- The sections of a script (`GeneratedScript`). -/
structure Sections where
  preamble : String
  loading : String
  modeling : String
deriving DecidableEq

/-- The script with the given sections. -/
def Sections.text (sections : Sections) : String :=
  sections.preamble ++ sections.loading ++ sections.modeling

namespace Generator

/-! ## Construction -/

/-- The generator of a model with the built-in templates and the default options
    (`CodeGenerator.new`). -/
def ofModel (model : Model) : Generator :=
  ⟨model, none, .builtin, .default⟩

/-- The generator of a model whose data are read from a path, if one is given
    (`CodeGenerator.try_new`). -/
def ofModelAndData (model : Model) : Option FilePath → Except Violation Generator
  | none => .ok (ofModel model)
  | some path => (DataSource.ofPath path).map fun source => { ofModel model with data := source }

/-- The generator with other templates (`with_templates`). -/
def withTemplates (generator : Generator) (templates : TemplateTable) : Generator :=
  { generator with templates }

/-- The generator with other options, which are checked (`with_config`). -/
def withOptions (generator : Generator) (options : ScriptOptions) :
    Except OptionsError Generator :=
  options.check.map fun _ => { generator with options }

/-! ## Packages -/

/-- The package with the fitting function for mixed effects (`MIXED_EFFECTS_PACKAGE`). -/
def mixedEffectsPackage : String :=
  "lme4"

/-- The function that fits the model (`fitting_function`). -/
def fittingFunction (generator : Generator) : FittingFunction :=
  if generator.model.isMixed then .glmer else .glm

/-- Texts without those that stand earlier, among `seen` or in front of them. -/
def firstOccurrences (seen : List String) : List String → List String
  | [] => []
  | s :: rest =>
    if s ∈ seen then firstOccurrences seen rest else s :: firstOccurrences (s :: seen) rest

theorem mem_firstOccurrences {seen texts : List String} {s : String} :
    s ∈ firstOccurrences seen texts ↔ s ∈ texts ∧ s ∉ seen := by
  induction texts generalizing seen with
  | nil => simp [firstOccurrences]
  | cons t rest ih =>
    by_cases h : t ∈ seen
    · simp only [firstOccurrences, h, if_true, ih, List.mem_cons]
      grind
    · simp only [firstOccurrences, h, if_false, ih, List.mem_cons]
      grind

theorem nodup_firstOccurrences (seen texts : List String) :
    (firstOccurrences seen texts).Nodup := by
  induction texts generalizing seen with
  | nil => simp [firstOccurrences]
  | cons t rest ih =>
    by_cases h : t ∈ seen
    · simp only [firstOccurrences, h, if_true, ih]
    · simp [firstOccurrences, h, ih, mem_firstOccurrences]

/-- The packages of the script: the base packages, and the one that a mixed model needs. -/
def packages (generator : Generator) : List String :=
  firstOccurrences [] (generator.options.basePackages ++
    if generator.model.isMixed then [mixedEffectsPackage] else [])

/-! ## Sections -/

/-- Lines of a section, with an empty line after them (`section`). -/
def sectionText (lines : List String) : String :=
  String.join (lines.map (· ++ "\n")) ++ "\n"

/-- The section that installs and loads the packages. -/
def preamble (generator : Generator) : Except LookupError String := do
  let setup ← generator.templates.category "setup"
  let installs ← generator.packages.mapM (generator.templates.fragment "installs")
  let imports ← generator.packages.mapM (generator.templates.fragment "imports")
  pure (sectionText (setup.map (·.text) ++ installs ++ imports))

/-- The statement that reads the data from a path, given as an R literal. -/
def readStatement (generator : Generator) (template path : String) : String :=
  Template.render template [("data", generator.options.dataVariable), ("path", path)]

/-- The section that reads the data. Without a data file, a comment asks for one. -/
def loading (generator : Generator) : Except LookupError String := do
  let read ← generator.templates.fragment "loading" "read"
  match generator.data with
  | some source => pure (sectionText [generator.readStatement read source.literal])
  | none =>
    let placeholder := generator.options.placeholder
    let comment ← generator.templates.fragment "loading" "replace_path"
    pure (sectionText
      [Template.render comment [("placeholder", placeholder)],
       generator.readStatement read (Literal.write placeholder)])

/-- The section that fits the model. -/
def modeling (generator : Generator) : Except LookupError String := do
  let call ← generator.templates.fragment "modeling" generator.fittingFunction.name
  let model := generator.model
  let statement := Template.render call
    [("model", generator.options.modelVariable),
     ("formula", model.formula),
     ("family", model.family.name),
     ("link", model.link.literal),
     ("data", generator.options.dataVariable)]
  pure (statement ++ "\n")

/-- All sections (`CodeGenerator.generate`). -/
def sections (generator : Generator) : Except LookupError Sections := do
  let preamble ← generator.preamble
  let loading ← generator.loading
  let modeling ← generator.modeling
  pure ⟨preamble, loading, modeling⟩

/-- The script. -/
def script (generator : Generator) : Except LookupError String :=
  generator.sections.map Sections.text

/-- Where the script is written when its directory is given. -/
def scriptPath (generator : Generator) (directory : FilePath) : FilePath :=
  directory.join (.ofString generator.options.fileName)

end Generator

end FitScript
