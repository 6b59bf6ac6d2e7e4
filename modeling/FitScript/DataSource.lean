import FitScript.Failure
import FitScript.Header
import FitScript.Literal
import FitScript.Model.Basic

/-!
# Data files

The file that a script reads its data from.

* `DataSource.ofPath`: a path of a data file. It must be a text, since it is written into the
  script, and its extension must be `csv` in any case.
* `DataSource.literal`: the path as an R literal.
* `missingColumns`: the variables of a model that a header lacks.
-/

namespace FitScript

/-- A data file by its path. -/
structure DataSource where
  path : FilePath
deriving DecidableEq

namespace DataSource

/-- The extension of data files (`DATA_EXTENSION`). -/
def extension : String :=
  "csv"

/-- A text in lower case, as far as ASCII letters are concerned. -/
def lowered (s : String) : List Char :=
  s.toList.map Char.toLower

/-- The data file at a path (`DataSource.new`). -/
def ofPath (path : FilePath) : Except Violation DataSource :=
  match path.text? with
  | none => .error (.dataPathNotText path.quoted)
  | some text =>
    match path.extension?.bind Text.Utf8.decode? with
    | some found =>
      if lowered found = lowered extension then .ok ⟨path⟩
      else .error (.unsupportedDataExtension text (some found) extension)
    | none => .error (.unsupportedDataExtension text none extension)

/-- The path of a data file as an R literal (`DataSource.r_literal`). -/
def literal (source : DataSource) : String :=
  Literal.write source.path.display

end DataSource

/-- The columns that the variables and groups of a model refer to. -/
def Model.columns (model : Model) : List String :=
  model.dependent.name ::
    (model.independents.map (·.name) ++ model.randomEffects.map (·.group))

/-- The columns of a model that a file lacks (`missing_columns`). -/
def Model.missingColumns (model : Model) (columns : List String) : List String :=
  model.columns.filter (· ∉ columns)

end FitScript
