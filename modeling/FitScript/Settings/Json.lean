import FitScript.Json.Decoder
import FitScript.Settings

/-!
# Settings as JSON

The JSON form of settings. Every field has a default, so that a file names only what differs.

* `Settings.ofJson`: the settings in a text, checked.
-/

namespace FitScript

open Json

/-- The fields of a convention. -/
def Convention.record : Record Convention where
  name := "FormulaConvention"
  fields :=
    [Field.of "termSeparator" .text fun termSeparator c => { c with termSeparator },
     Field.of "interactionJoiner" .text fun interactionJoiner c => { c with interactionJoiner }]
  initial := .default

/-- The fields of script options. -/
def ScriptOptions.record : Record ScriptOptions where
  name := "GeneratorConfig"
  fields :=
    [Field.of "dataVariable" .text fun dataVariable o => { o with dataVariable },
     Field.of "modelVariable" .text fun modelVariable o => { o with modelVariable },
     Field.of "placeholder" .text fun placeholder o => { o with placeholder },
     Field.of "fileName" .text fun fileName o => { o with fileName },
     Field.of "basePackages" (.list .text) fun basePackages o => { o with basePackages }]
  initial := .default

namespace Settings

/-- The fields of settings. -/
def record : Record Settings where
  name := "Settings"
  fields :=
    [Field.of "formula" Convention.record.decoder fun formula s => { s with formula },
     Field.of "generator" ScriptOptions.record.decoder fun generator s => { s with generator }]
  initial := .default

/-- The settings in a text, if they keep all rules (`Settings.from_str`). -/
def ofJson (text : String) : Except Failure Settings := do
  let settings ← (decodeText record.decoder text).mapError .document
  settings.check
  pure settings

end Settings

end FitScript
