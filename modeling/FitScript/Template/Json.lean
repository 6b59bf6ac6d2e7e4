import FitScript.Json.Decoder
import FitScript.Template

/-!
# Template tables as JSON

The JSON form of a template table: an object of categories, each a list of fragments.

* `TemplateTable.ofJson`: the table in a text.
-/

namespace FitScript

open Json

/-- The fields of a fragment. -/
def Fragment.record : Record Fragment where
  name := "Fragment"
  fields :=
    [(Field.of "key" .text fun key f => { f with key }).mandatory,
     (Field.of "text" .text fun text f => { f with text }).mandatory]
  initial := ⟨"", ""⟩

namespace TemplateTable

/-- Reads a table. -/
def decoder : Decoder TemplateTable :=
  fun tree => (Decoder.members (.list Fragment.record.decoder) tree).map ofList

/-- The table in a text (`TemplateTable.from_str`). -/
def ofJson (text : String) : Except Failure TemplateTable :=
  (decodeText decoder text).mapError .document

end TemplateTable

end FitScript
