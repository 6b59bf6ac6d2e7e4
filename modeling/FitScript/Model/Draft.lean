import FitScript.Model.Validation

/-!
# Drafts of models

A model put together step by step, and validated at the end.

* `Draft`: the description and the convention so far. `Draft.start` has a dependent variable.
* `DraftStep`: one addition or change. `Draft.take` carries it out.
* `Draft.model`: the model of a draft, or the first violation.
-/

namespace FitScript

/-- A model that is being put together (`ModelBuilder`). -/
structure Draft where
  description : Description
  convention : Convention
deriving DecidableEq

/-- One addition to a draft, or a change of one of its parts. -/
inductive DraftStep where
  | id (id : String)
  /-- An independent variable. -/
  | independent (name : String)
  /-- An independent variable with levels. -/
  | categorical (name : String) (levels : List String)
  | interaction (factors : List String)
  | random (group : String) (slopes : List String)
  | family (name : String)
  | link (name : String)
  | convention (convention : Convention)
deriving DecidableEq

namespace Draft

/-- A draft with a dependent variable and nothing else (`ModelBuilder.new`). -/
def start (dependent : String) : Draft :=
  ⟨{ Description.empty with dependent := some (.bare dependent) }, .default⟩

/-- The description after a step. -/
def describe (d : Description) : DraftStep → Description
  | .id id => { d with id := some id }
  | .independent name => { d with independent := d.independent ++ [.bare name] }
  | .categorical name levels =>
    { d with independent := d.independent ++ [.detailed name (some levels)] }
  | .interaction factors => { d with interactions := d.interactions ++ [factors] }
  | .random group slopes => { d with random := d.random ++ [⟨group, slopes⟩] }
  | .family name => { d with family := some name }
  | .link name => { d with link := some name }
  | .convention _ => d

/-- The draft after a step. -/
def take (draft : Draft) (step : DraftStep) : Draft :=
  { description := describe draft.description step
    convention :=
      match step with
      | .convention convention => convention
      | _ => draft.convention }

/-- The draft after some steps. -/
def takeAll (draft : Draft) (steps : List DraftStep) : Draft :=
  steps.foldl take draft

/-- The model of a draft (`ModelBuilder.build`). -/
def model (draft : Draft) : Except Violation Model :=
  Model.ofDescription draft.description draft.convention

end Draft

end FitScript
