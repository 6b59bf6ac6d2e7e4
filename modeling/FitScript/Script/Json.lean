import FitScript.Description.Json
import FitScript.Model.Validation
import FitScript.Script

/-!
# Scripts of documents

From the text of a model description to its model and its script.

* `Model.ofJson`: the model that a text describes.
* `scriptOfJson`: the script that a text describes.
-/

namespace FitScript

/-- The model that a text describes, under the default convention (`build_model`). -/
def Model.ofJson (text : String) : Except Failure Model := do
  let description ← Description.ofJson text
  (Model.ofDescription description .default).mapError .violation

/-- The script that a text describes (`generate_script`). It reads the data file that the
    description names. -/
def scriptOfJson (text : String) : Except Failure String := do
  let description ← Description.ofJson text
  let model ← (Model.ofDescription description .default).mapError .violation
  let generator ← (Generator.ofModelAndData model description.data).mapError .violation
  generator.script.mapError .lookup

end FitScript
