import FitScript.Name
import FitScript.Text.Blank
import FitScript.Violation

/-!
# Formula conventions

How the terms of a formula are joined.

* `Convention`: the separator of terms and the joiner of names.
* `Convention.check`: a separator must be a plus sign between blanks, and a joiner must keep
  joined names syntactic.
-/

namespace FitScript

/-- How the terms of a formula are joined (`FormulaConvention`). -/
structure Convention where
  /-- Stands between the terms of the right-hand side. -/
  termSeparator : String
  /-- Stands between the variables in the name of an interaction. -/
  interactionJoiner : String
deriving DecidableEq

namespace Convention

/-- Terms are joined by a bare plus sign, names by `_X_`. -/
def default : Convention :=
  ⟨"+", "_X_"⟩

/-- Reports a separator or joiner that would change the meaning of a formula
    (`FormulaConvention.validate`). The joiner is tried between two letters, since it ends up inside
    a name. -/
def check (convention : Convention) : Except Violation Unit :=
  if Text.trim convention.termSeparator ≠ "+" then
    .error (.invalidTermSeparator convention.termSeparator)
  else if !Name.isSyntactic ("a" ++ convention.interactionJoiner ++ "b") then
    .error (.invalidInteractionJoiner convention.interactionJoiner)
  else .ok ()

end Convention

end FitScript
