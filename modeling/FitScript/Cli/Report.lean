import FitScript.Failure

/-!
# Failure reports

What a failing run tells at its end.

* `Report`: what could not be done, and why.
* `Report.text`: the text of a report. Several causes are numbered from the nearest one on.
-/

namespace FitScript.Cli

/-- What could not be done, and its causes, the nearest one first. -/
structure Report where
  summary : String
  causes : List String
deriving DecidableEq

namespace Report

/-- A failure that needs no further words. -/
def ofFailure (failure : Failure) : Report :=
  ⟨failure.message, failure.cause?.toList⟩

/-- What could not be done because of a failure. -/
def because (summary : String) (failure : Failure) : Report :=
  ⟨summary, failure.message :: failure.cause?.toList⟩

/-- A cause, with a lead before its first line and a margin before the others. -/
def indented (lead margin cause : String) : String :=
  lead ++ ("\n" ++ margin).intercalate ((Text.separate '\n' cause.toList).map String.ofList)

/-- A number, filled up with blanks on the left to a width of five. -/
def padded (n : Nat) : String :=
  let digits := toString n
  String.ofList (List.replicate (5 - digits.length) ' ') ++ digits

/-- Causes with numbers from `n` on. -/
def numbered (n : Nat) : List String → List String
  | [] => []
  | cause :: rest => indented (padded n ++ ": ") "       " cause :: numbered (n + 1) rest

/-- The causes of a report on lines of their own. -/
def causeLines : List String → List String
  | [cause] => [indented "    " "    " cause]
  | causes => numbered 0 causes

/-- The text of a report. -/
def text (report : Report) : String :=
  "Error: " ++ report.summary ++
    (if report.causes = [] then ""
      else "\n\nCaused by:" ++ String.join ((causeLines report.causes).map ("\n" ++ ·))) ++
    "\n"

end Report

end FitScript.Cli
