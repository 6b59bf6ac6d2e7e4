import FitScript.Model.Draft
import FitScript.Proofs.Description.RoundTrip

/-!
# Models from drafts

What a draft comes to after any number of steps, in any order.

* `DraftStep.part`: the part of a draft that a step adds to or sets.
* `Draft.take_eq`, `Draft.takeAll_eq`: a draft after one step and after many. Its lists have what
  was added to them, in order, and all other parts are as they were set last.
* `DraftStep.Alike`: steps that add the same and set the same last.
* `Draft.description_takeAll_start`: what a draft describes when all of it comes from steps.
* `Draft.model_eq_model_of_json`: a draft has the model of its description, also when that was
  written and read in between; alike steps lead to one description and one model.
-/

namespace FitScript

namespace DraftStep

/-! ## Parts -/

/-- The parts of a draft that steps can change. -/
inductive Part where
  | id
  | independent
  | interactions
  | random
  | family
  | link
  | convention
deriving DecidableEq

/-- The part that a step changes. -/
def part : DraftStep → Part
  | .id _ => .id
  | .independent _ | .categorical _ _ => .independent
  | .interaction _ => .interactions
  | .random _ _ => .random
  | .family _ => .family
  | .link _ => .link
  | .convention _ => .convention

/-- The identifier that a step sets. -/
def id? : DraftStep → Option String
  | .id text => some text
  | _ => none

/-- The variable that a step adds. -/
def entry? : DraftStep → Option VariableEntry
  | .independent name => some (.bare name)
  | .categorical name levels => some (.detailed name (some levels))
  | _ => none

/-- The interaction that a step adds. -/
def factors? : DraftStep → Option (List String)
  | .interaction factors => some factors
  | _ => none

/-- The random effect that a step adds. -/
def effect? : DraftStep → Option RandomEntry
  | .random group slopes => some ⟨group, slopes⟩
  | _ => none

/-- The family that a step sets. -/
def family? : DraftStep → Option String
  | .family name => some name
  | _ => none

/-- The link that a step sets. -/
def link? : DraftStep → Option String
  | .link name => some name
  | _ => none

/-- The convention that a step sets. -/
def convention? : DraftStep → Option Convention
  | .convention chosen => some chosen
  | _ => none

variable {α : Type} {f : DraftStep → Option α}

/-- What was set last. -/
def last? (f : DraftStep → Option α) (steps : List DraftStep) : Option α :=
  (steps.filterMap f).getLast?

/-- What a first step sets counts if no later step sets it. -/
theorem last?_cons (step : DraftStep) (rest : List DraftStep) :
    last? f (step :: rest) = (last? f rest).or (f step) := by
  unfold last?
  cases hstep : f step with
  | none => rw [List.filterMap_cons_none hstep, Option.or_none]
  | some a =>
    rw [List.filterMap_cons_some hstep, List.getLast?_cons]
    cases (rest.filterMap f).getLast? <;> rfl

/-- The steps that change a part are the ones that set it or add to it. -/
theorem filterMap_filter_part {p : Part} (h : ∀ step, step.part ≠ p → f step = none)
    (steps : List DraftStep) :
    (steps.filter (·.part = p)).filterMap f = steps.filterMap f := by
  rw [List.filterMap_filter]
  refine List.filterMap_congr fun step _ => ?_
  by_cases hpart : step.part = p
  · simp [hpart]
  · simp [hpart, h step hpart]

/-- What was set last was set by the last step that changes the part. -/
theorem last?_eq_bind {p : Part} (h : ∀ step, (f step).isSome ↔ step.part = p)
    (steps : List DraftStep) :
    last? f steps = (steps.filter (·.part = p)).getLast?.bind f := by
  have hnone (step : DraftStep) (hpart : step.part ≠ p) : f step = none := by
    rw [← Option.not_isSome_iff_eq_none, h]
    exact hpart
  rw [last?, ← filterMap_filter_part hnone]
  rcases List.eq_nil_or_concat (steps.filter (·.part = p)) with hnil | ⟨front, step, hlast⟩
  · rw [hnil]
    rfl
  · have hmem : step ∈ steps.filter (·.part = p) := by simp [hlast]
    obtain ⟨a, ha⟩ := Option.isSome_iff_exists.mp
      ((h step).mpr (of_decide_eq_true (List.mem_filter.mp hmem).2))
    simp [hlast, List.filterMap_append, ha]

/-! ## Alike steps -/

/-- Steps that add the same to each list, in the same order, and set each other part to the same
    last. -/
structure Alike (first second : List DraftStep) : Prop where
  added : ∀ p ∈ [Part.independent, .interactions, .random],
    first.filter (·.part = p) = second.filter (·.part = p)
  set : ∀ p ∈ [Part.id, .family, .link, .convention],
    (first.filter (·.part = p)).getLast? = (second.filter (·.part = p)).getLast?

variable {first second : List DraftStep}

theorem Alike.filterMap_eq (h : Alike first second) {p : Part}
    (hp : p ∈ [Part.independent, .interactions, .random])
    (hf : ∀ step, step.part ≠ p → f step = none) :
    first.filterMap f = second.filterMap f := by
  rw [← filterMap_filter_part hf, h.added p hp, filterMap_filter_part hf]

theorem Alike.last?_eq (h : Alike first second) {p : Part}
    (hp : p ∈ [Part.id, .family, .link, .convention])
    (hf : ∀ step, (f step).isSome ↔ step.part = p) : last? f first = last? f second := by
  rw [last?_eq_bind hf, h.set p hp, last?_eq_bind hf]

end DraftStep

namespace Draft

open DraftStep

/-! ## Drafts after steps -/

/-- A step adds to one list or sets one part, and leaves the rest of the draft. -/
theorem take_eq (draft : Draft) (step : DraftStep) : draft.take step =
    ⟨{ draft.description with
        id := step.id?.or draft.description.id
        independent := draft.description.independent ++ step.entry?.toList
        interactions := draft.description.interactions ++ step.factors?.toList
        random := draft.description.random ++ step.effect?.toList
        family := step.family?.or draft.description.family
        link := step.link?.or draft.description.link },
      step.convention?.getD draft.convention⟩ := by
  cases step <;>
    simp [take, describe, id?, entry?, factors?, effect?, family?, link?, convention?]

/-- **A draft after some steps.** -/
theorem takeAll_eq (draft : Draft) (steps : List DraftStep) : draft.takeAll steps =
    ⟨{ draft.description with
        id := (last? id? steps).or draft.description.id
        independent := draft.description.independent ++ steps.filterMap entry?
        interactions := draft.description.interactions ++ steps.filterMap factors?
        random := draft.description.random ++ steps.filterMap effect?
        family := (last? family? steps).or draft.description.family
        link := (last? link? steps).or draft.description.link },
      (last? convention? steps).getD draft.convention⟩ := by
  induction steps generalizing draft with
  | nil => simp [takeAll, last?]
  | cons step rest ih =>
    have hadded {α : Type} (f : DraftStep → Option α) :
        (step :: rest).filterMap f = (f step).toList ++ rest.filterMap f := by
      cases h : f step <;> simp [h]
    have hstep : draft.takeAll (step :: rest) = (draft.take step).takeAll rest := rfl
    -- what the first step adds stands in front, and what it sets counts after all the others
    rw [hstep, ih, take_eq]
    simp only [last?_cons, hadded, Option.or_assoc, Option.getD_or, List.append_assoc]

/-- What some steps describe: what they added, in order, and what they set last. -/
theorem description_takeAll_start (dependent : String) (steps : List DraftStep) :
    ((start dependent).takeAll steps).description =
      { Description.empty with
        dependent := some (.bare dependent)
        id := last? id? steps
        independent := steps.filterMap entry?
        interactions := steps.filterMap factors?
        random := steps.filterMap effect?
        family := last? family? steps
        link := last? link? steps } := by
  rw [takeAll_eq]
  simp only [start, Description.empty, Option.or_none, List.nil_append]

/-- Alike steps lead to the same draft. -/
theorem takeAll_eq_of_alike {first second : List DraftStep} (h : Alike first second)
    (draft : Draft) : draft.takeAll first = draft.takeAll second := by
  rw [takeAll_eq, takeAll_eq,
    h.filterMap_eq (p := .independent) (by decide)
      (by intro step; cases step <;> simp [part, entry?]),
    h.filterMap_eq (p := .interactions) (by decide)
      (by intro step; cases step <;> simp [part, factors?]),
    h.filterMap_eq (p := .random) (by decide) (by intro step; cases step <;> simp [part, effect?]),
    h.last?_eq (p := .id) (by decide) (by intro step; cases step <;> simp [part, id?]),
    h.last?_eq (p := .family) (by decide) (by intro step; cases step <;> simp [part, family?]),
    h.last?_eq (p := .link) (by decide) (by intro step; cases step <;> simp [part, link?]),
    h.last?_eq (p := .convention) (by decide)
      (by intro step; cases step <;> simp [part, convention?])]

/-- The description of a draft can be written. -/
theorem writable_takeAll_start (dependent : String) (steps : List DraftStep) :
    ((start dependent).takeAll steps).description.Writable := by
  rw [description_takeAll_start]
  refine ⟨?_, fun path hpath => ?_⟩
  · exact List.mem_singleton_self _
  · exact absurd hpath (Option.not_mem_none path)

/-- **A draft has the model of its description.** After any steps the description has what they added
    and what they set last. It can be written and is read back as it was; under the convention that
    was set last it comes to the model of the draft, or to the same violation. Steps that add the
    same and set the same last lead to the same description and to the same model. -/
theorem model_eq_model_of_json (dependent : String) (steps : List DraftStep) :
    let draft := (start dependent).takeAll steps
    draft.description =
      { Description.empty with
        dependent := some (.bare dependent)
        id := last? id? steps
        independent := steps.filterMap entry?
        interactions := steps.filterMap factors?
        random := steps.filterMap effect?
        family := last? family? steps
        link := last? link? steps } ∧
    (∃ text d, draft.description.toJson = .ok text ∧ Description.ofJson text = .ok d ∧
      d = draft.description ∧
      Model.ofDescription d ((last? convention? steps).getD .default) = draft.model) ∧
    ∀ others, Alike steps others →
      ((start dependent).takeAll others).description = draft.description ∧
      ((start dependent).takeAll others).model = draft.model := by
  intro draft
  obtain ⟨text, hwritten, hread⟩ := (writable_takeAll_start dependent steps).exists_toJson
  have hconvention : draft.convention = (last? convention? steps).getD .default := by
    show ((start dependent).takeAll steps).convention = _
    rw [takeAll_eq]
    rfl
  refine ⟨description_takeAll_start dependent steps,
    ⟨text, draft.description, hwritten, hread, rfl, ?_⟩, fun others h => ?_⟩
  · rw [← hconvention]
    rfl
  · rw [← takeAll_eq_of_alike h]
    exact ⟨rfl, rfl⟩

/-- Two orders of the same steps, with a name that holds a control character, empty levels, empty
    slopes, and an identifier and a convention that are set more than once. -/
theorem model_eq_model_of_json_reordered :
    let steps : List DraftStep :=
      [.id "m", .convention ⟨" + ", "_by_"⟩, .independent "x\u0001", .random "g" [],
        .family "binomial", .convention .default, .categorical "race" [], .family "gaussian",
        .id "n", .interaction ["race", "x\u0001"]]
    let others : List DraftStep :=
      [.interaction ["race", "x\u0001"], .convention .default, .family "gaussian",
        .independent "x\u0001", .id "n", .categorical "race" [], .random "g" []]
    let draft := (start "y").takeAll steps
    Alike steps others ∧
      draft.description =
        { Description.empty with
          dependent := some (.bare "y")
          id := some "n"
          independent := [.bare "x\u0001", .detailed "race" (some [])]
          interactions := [["race", "x\u0001"]]
          random := [⟨"g", []⟩]
          family := some "gaussian" } ∧
      (∃ text d, draft.description.toJson = .ok text ∧ Description.ofJson text = .ok d ∧
        d = draft.description ∧ Model.ofDescription d .default = draft.model) ∧
      ((start "y").takeAll others).description = draft.description ∧
      ((start "y").takeAll others).model = draft.model := by
  intro steps others draft
  have halike : Alike steps others := ⟨by decide, by decide⟩
  obtain ⟨hdescription, hjson, hothers⟩ := model_eq_model_of_json "y" steps
  exact ⟨halike, hdescription, hjson, hothers others halike⟩

end Draft

end FitScript
