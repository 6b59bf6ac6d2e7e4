import FitScript.Template

/-!
# The built-in templates

* `TemplateTable.builtin`: the table used when no other is given. It sets the package mirror,
  installs and loads two packages, reads a file and fits a model.
-/

namespace FitScript.TemplateTable

/-- The built-in table. -/
def builtin : TemplateTable where
  categories :=
    [("setup",
      [⟨"repos", "options(repos = c(CRAN = 'https://cloud.r-project.org'))"⟩]),
     ("installs",
      [⟨"tidyverse",
        "if (!requireNamespace('tidyverse', quietly = TRUE)) install.packages('tidyverse')"⟩,
       ⟨"lme4",
        "if (!requireNamespace('lme4', quietly = TRUE)) " ++
          "install.packages('lme4', dependencies = TRUE)"⟩]),
     ("imports",
      [⟨"tidyverse", "library(tidyverse)"⟩,
       ⟨"lme4", "library(lme4)"⟩]),
     ("loading",
      [⟨"replace_path",
        "# Replace '\x7bplaceholder\x7d' with the path to your data file before running " ++
          "this script."⟩,
       ⟨"read", "\x7bdata\x7d <- read.csv(\x7bpath\x7d)"⟩]),
     ("modeling",
      [⟨"glm",
        "\x7bmodel\x7d <- glm(formula = \x7bformula\x7d, " ++
          "family = \x7bfamily\x7d(link = \x7blink\x7d), data = \x7bdata\x7d)"⟩,
       ⟨"glmer",
        "\x7bmodel\x7d <- glmer(formula = \x7bformula\x7d, " ++
          "family = \x7bfamily\x7d(link = \x7blink\x7d), data = \x7bdata\x7d)"⟩])]

end FitScript.TemplateTable
