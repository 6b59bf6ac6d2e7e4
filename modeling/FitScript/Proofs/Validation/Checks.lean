import FitScript.Proofs.Validation.Valid

/-!
# The order of the checks

Validation is a row of checks, each of which looks at one place of a description.

* `Check`: the checks, and `Check.Before`, the order in which they are made.
* `Check.outcome`: what a check reports.
* `void_ofDescription`: validation makes the checks of a description in a row.
* `ofDescription_eq_error_iff`: the violation reported is the one of the first check that fails.
-/

namespace FitScript

namespace Validation

open Outcome

variable {α β : Type}

/-- A rule for a description and its convention, at one place where it can be broken. -/
inductive Check where
  | separator
  | joiner
  | dependent
  /-- There are independent variables. -/
  | someIndependent
  | independent (position : Nat)
  | interaction (position : Nat)
  | randomEffect (position : Nat)
  | family
  | link
  /-- The link is available for the family. -/
  | support
  /-- The family has a likelihood, or there are no random effects. -/
  | likelihood
deriving DecidableEq

/-- What the terms of a description are built from, if it has a dependent variable. -/
def scope? (d : Description) (c : Convention) : Option Scope :=
  d.dependent.map fun y => ⟨y.name, d.predictors, c.interactionJoiner⟩

/-- A step of a loop over entries that are built from what is in scope. -/
def inScope (d : Description) (c : Convention)
    (step : Scope → List α → α → Except Violation β) (entries : List α) (i : Nat) :
    Except Violation Unit :=
  (scope? d c).elim (.ok ()) fun scope => atPosition (step scope) entries i

/-- An independent variable whose name differs from the dependent one and from earlier ones. -/
def independentAfter (scope : Scope) (earlier : List VariableEntry) (entry : VariableEntry) :
    Except Violation Variable :=
  if entry.name ∈ scope.dependent :: earlier.map (·.name) then
    .error (.duplicateVariable entry.name)
  else variableOf .independent "independent" entry

namespace Check

/-- The part of a description that a check belongs to, in the order of the parts. -/
def stage : Check → Nat
  | separator => 0
  | joiner => 1
  | dependent => 2
  | someIndependent | independent _ => 3
  | interaction _ => 4
  | randomEffect _ => 5
  | family => 6
  | link => 7
  | support => 8
  | likelihood => 9

/-- The place of a check among those of the same part. -/
def index : Check → Nat
  | independent i => i + 1
  | interaction i | randomEffect i => i
  | _ => 0

/-- A check is made before another one. -/
def Before (k l : Check) : Prop :=
  k.stage < l.stage ∨ k.stage = l.stage ∧ k.index < l.index

instance (k l : Check) : Decidable (k.Before l) :=
  inferInstanceAs (Decidable (_ ∨ _))

/-- What a check reports. Checks at positions that a list does not have report nothing, and so do
    checks of terms if there is no dependent variable. -/
def outcome (d : Description) (c : Convention) : Check → Except Violation Unit
  | separator =>
    if Text.trim c.termSeparator = "+" then .ok ()
    else .error (.invalidTermSeparator c.termSeparator)
  | joiner =>
    if Name.isSyntactic ("a" ++ c.interactionJoiner ++ "b") then .ok ()
    else .error (.invalidInteractionJoiner c.interactionJoiner)
  | dependent => void (dependentOf d.dependent)
  | someIndependent => if d.independent = [] then .error .noIndependentVariables else .ok ()
  | independent i => inScope d c independentAfter d.independent i
  | interaction i =>
    inScope d c (fun scope earlier => interactionAfter scope (earlier.map Interaction.mk))
      d.interactions i
  | randomEffect i =>
    inScope d c (fun scope earlier => randomEffectAfter scope (earlier.map (·.group))) d.random i
  | family => void (familyOf d.family)
  | link => do
    let family ← familyOf d.family
    void (linkOf family d.link)
  | support => do
    let family ← familyOf d.family
    let link ← linkOf family d.link
    checkSupport family link
  | likelihood => do
    let family ← familyOf d.family
    checkLikelihood family (d.random.map fun entry => ⟨entry.group, entry.slopes⟩)

/-- The checks of a description, one after the other. -/
def sequence (d : Description) : List Check :=
  [separator, joiner] ++ ([dependent] ++
    ((someIndependent :: (List.range d.independent.length).map independent) ++
      ((List.range d.interactions.length).map interaction ++
        ((List.range d.random.length).map randomEffect ++
          ([family] ++ ([link] ++ ([support] ++ [likelihood])))))))

end Check

/-! ## Loops -/

/-- What is taken after an entry, if `taken` holds what was taken in front of it. -/
theorem mem_cons_iff_mem_map_concat {α β : Type} {f : α → β} {base taken : List β}
    {before : List α} (h : ∀ b, b ∈ taken ↔ b ∈ base ++ before.map f) (a : α) (b : β) :
    b ∈ f a :: taken ↔ b ∈ base ++ (before ++ [a]).map f := by
  rw [List.mem_cons, h, List.map_append, ← List.append_assoc, List.mem_append (t := [a].map f),
    List.map_singleton, List.mem_singleton, or_comm]

/-- The names taken are those of the dependent variable and of the entries in front. -/
theorem declaredAfter_eq (scope : Scope) {taken : List String}
    (before : List VariableEntry) {entries : List VariableEntry}
    (h : ∀ s, s ∈ taken ↔ s ∈ [scope.dependent] ++ before.map (·.name)) :
    declaredAfter taken entries = eachAfter (independentAfter scope) before entries := by
  induction entries generalizing taken before with
  | nil => rfl
  | cons entry rest ih =>
    have hmem : entry.name ∈ taken ↔ entry.name ∈ scope.dependent :: before.map (·.name) := h _
    rw [declaredAfter, eachAfter, independentAfter, ← ih _ (mem_cons_iff_mem_map_concat h entry)]
    simp only [hmem]
    split_ifs
    · rfl
    · rfl

/-- The earlier interactions that an interaction has to differ from may be in any order. -/
theorem interactionAfter_congr {scope : Scope} {earlier earlier' : List Interaction}
    {term : List String} (h : ∀ i, i ∈ earlier ↔ i ∈ earlier') :
    interactionAfter scope earlier term = interactionAfter scope earlier' term := by
  have hany (p : Interaction → Bool) : earlier.any p = earlier'.any p := by
    rw [Bool.eq_iff_iff, List.any_eq_true, List.any_eq_true]
    simp only [h]
  simp only [interactionAfter, hany]

/-- An interaction is made of its term, which repeats no variable. -/
theorem interactionAfter_eq_ok {scope : Scope} {earlier : List Interaction} {term : List String}
    {i : Interaction} (h : interactionAfter scope earlier term = .ok i) :
    term.Nodup ∧ i = ⟨term⟩ := by
  unfold interactionAfter at h
  by_cases hshort : term.length < 2 ∨ (firstRepeated? [] term).isSome
  · rw [if_pos hshort] at h
    cases h
  rw [if_neg hshort] at h
  simp only [not_or, Bool.not_eq_true, Option.isSome_eq_false_iff, Option.isNone_iff_eq_none,
    firstRepeated?_eq_none_iff] at hshort
  refine ⟨hshort.2.1, ?_⟩
  split at h
  · cases h
  · dsimp only at h
    split_ifs at h
    exact (Except.ok.inj h).symm

theorem interactionsAfter_eq {scope : Scope} {earlier : List Interaction}
    (before : List (List String)) {terms : List (List String)}
    (h : ∀ i, i ∈ earlier ↔ i ∈ [] ++ before.map Interaction.mk) :
    interactionsAfter scope earlier terms =
      eachAfter (fun before => interactionAfter scope (before.map Interaction.mk)) before
        terms := by
  induction terms generalizing earlier before with
  | nil => rfl
  | cons term rest ih =>
    rw [interactionsAfter, eachAfter, interactionAfter_congr h, List.nil_append]
    cases hfirst : interactionAfter scope (before.map Interaction.mk) term with
    | error v => rfl
    | ok first =>
      -- the loop keeps interactions and the row keeps terms, so the result has to be known here
      obtain ⟨-, rfl⟩ := interactionAfter_eq_ok hfirst
      rw [← ih _ (mem_cons_iff_mem_map_concat h term)]
      rfl

theorem randomEffectAfter_congr {scope : Scope} {taken taken' : List String} {entry : RandomEntry}
    (h : ∀ s, s ∈ taken ↔ s ∈ taken') :
    randomEffectAfter scope taken entry = randomEffectAfter scope taken' entry := by
  simp only [randomEffectAfter, h]

theorem randomEffectsAfter_eq {scope : Scope} {taken : List String}
    (before : List RandomEntry) {entries : List RandomEntry}
    (h : ∀ s, s ∈ taken ↔ s ∈ [] ++ before.map (·.group)) :
    randomEffectsAfter scope taken entries =
      eachAfter (fun before => randomEffectAfter scope (before.map (·.group))) before entries := by
  induction entries generalizing taken before with
  | nil => rfl
  | cons entry rest ih =>
    rw [randomEffectsAfter, eachAfter, randomEffectAfter_congr h, List.nil_append,
      ih _ (mem_cons_iff_mem_map_concat h entry)]

/-! ## The row of checks -/

section Stages

variable {d : Description} {c : Convention} {y : VariableEntry}

theorem void_check : void c.check = forM [Check.separator, .joiner] (Check.outcome d c) := by
  simp only [List.forM_cons, List.forM_nil, Check.outcome, Convention.check]
  split_ifs <;> simp_all [void, Except.map, bind, Except.bind, pure, Except.pure]

theorem inScope_eq (hy : d.dependent = some y)
    {step : Scope → List α → α → Except Violation β} {entries : List α} :
    inScope d c step entries =
      atPosition (step ⟨y.name, d.predictors, c.interactionJoiner⟩) entries := by
  funext i
  rw [inScope, scope?, hy]
  rfl

theorem void_independentsOf (hy : d.dependent = some y) :
    void (independentsOf y.name d.independent) =
      forM (Check.someIndependent :: (List.range d.independent.length).map .independent)
        (Check.outcome d c) := by
  rw [List.forM_cons, List.forM_map]
  simp only [Check.outcome, inScope_eq hy]
  unfold independentsOf
  split_ifs with hempty hnil hnil
  · rfl
  · exact absurd (List.isEmpty_iff.mp hempty) hnil
  · exact absurd (List.isEmpty_iff.mpr hnil) hempty
  · rw [declaredAfter_eq ⟨y.name, d.predictors, c.interactionJoiner⟩ [] (by simp), void_eachAfter]
    rfl

theorem void_interactionsAfter (hy : d.dependent = some y) :
    void (interactionsAfter ⟨y.name, d.predictors, c.interactionJoiner⟩ [] d.interactions) =
      forM ((List.range d.interactions.length).map Check.interaction) (Check.outcome d c) := by
  rw [List.forM_map]
  simp only [Check.outcome, inScope_eq hy]
  rw [interactionsAfter_eq [] (by simp), void_eachAfter]
  rfl

theorem void_randomEffectsAfter (hy : d.dependent = some y) :
    void (randomEffectsAfter ⟨y.name, d.predictors, c.interactionJoiner⟩ [] d.random) =
      forM ((List.range d.random.length).map Check.randomEffect) (Check.outcome d c) := by
  rw [List.forM_map]
  simp only [Check.outcome, inScope_eq hy]
  rw [randomEffectsAfter_eq [] (by simp), void_eachAfter]
  rfl

theorem outcome_link {family : Family} (hfamily : familyOf d.family = .ok family) :
    Check.outcome d c .link = void (linkOf family d.link) := by
  rw [Check.outcome, hfamily]
  rfl

theorem outcome_support {family : Family} {link : Link} (hfamily : familyOf d.family = .ok family)
    (hlink : linkOf family d.link = .ok link) :
    Check.outcome d c .support = checkSupport family link := by
  rw [Check.outcome, hfamily]
  show (linkOf family d.link >>= fun link => checkSupport family link) = _
  rw [hlink]
  rfl

theorem outcome_likelihood {family : Family} (hfamily : familyOf d.family = .ok family) :
    Check.outcome d c .likelihood =
      checkLikelihood family (d.random.map fun entry => ⟨entry.group, entry.slopes⟩) := by
  rw [Check.outcome, hfamily]
  rfl

/-- Validation makes the checks of a description in a row. -/
theorem void_ofDescription (d : Description) (c : Convention) :
    void (Model.ofDescription d c) = forM (Check.sequence d) (Check.outcome d c) := by
  simp only [Check.sequence, List.forM_append, forM_singleton]
  unfold Model.ofDescription
  -- stage by stage: later checks are stated for the description, so each result is put back in
  -- terms of it before the next stage
  refine void_bind_eq void_check fun _ _ => ?_
  refine void_bind_eq rfl fun dependent hdependent => ?_
  obtain ⟨y, hy, -, rfl⟩ := dependentOf_eq_ok_iff.mp hdependent
  refine void_bind_eq (void_independentsOf hy) fun independents hindependents => ?_
  obtain ⟨-, -, -, rfl⟩ := independentsOf_eq_ok_iff.mp hindependents
  rw [names_map_toVariable]
  refine void_bind_eq (void_interactionsAfter hy) fun interactions _ => ?_
  refine void_bind_eq (void_randomEffectsAfter hy) fun effects heffects => ?_
  obtain ⟨-, -, -, rfl⟩ := (randomEffectsAfter_eq_ok_iff (y := y) hy).mp heffects
  refine void_bind_eq rfl fun family hfamily => ?_
  refine void_bind_eq (outcome_link hfamily).symm fun link hlink => ?_
  refine void_bind_eq ((void_unit _).trans (outcome_support hfamily hlink).symm) fun _ _ => ?_
  exact void_bind_pure.trans ((void_unit _).trans (outcome_likelihood hfamily).symm)

/-! ## The first check that fails -/

theorem inScope_of_le {step : Scope → List α → α → Except Violation β} {entries : List α} {i : Nat}
    (h : entries.length ≤ i) : inScope d c step entries i = .ok () := by
  unfold inScope
  cases scope? d c with
  | none => rfl
  | some scope => rw [Option.elim_some, atPosition, List.getElem?_eq_none h]

/-- Other checks have nothing to report. -/
theorem Check.outcome_of_notMem {k : Check} (h : k ∉ Check.sequence d) :
    k.outcome d c = .ok () := by
  cases k with
  | independent i => exact inScope_of_le (by simpa [Check.sequence] using h)
  | interaction i => exact inScope_of_le (by simpa [Check.sequence] using h)
  | randomEffect i => exact inScope_of_le (by simpa [Check.sequence] using h)
  | _ => exact absurd (by simp [Check.sequence]) h

/-- The checks of a description are made in their order. -/
theorem Check.pairwise_sequence : (Check.sequence d).Pairwise Check.Before := by
  have hrange (n : Nat) : (List.range n).Pairwise fun i j => i < j := List.pairwise_lt_range
  simp [Check.sequence, List.pairwise_append, List.pairwise_map, Check.Before, Check.stage,
    Check.index, or_imp, forall_and, hrange]

/-- A check reports a violation, and those made before it report none. -/
structure Check.FirstFails (k : Check) (d : Description) (c : Convention) (v : Violation) :
    Prop where
  reports : k.outcome d c = .error v
  earlier : ∀ j : Check, j.Before k → j.outcome d c = .ok ()

theorem Check.not_before_of_before {j k : Check} (h : j.Before k) : ¬ k.Before j := by
  unfold Check.Before at h ⊢
  omega

/-- A description is rejected with the violation that the first failing check reports. -/
theorem ofDescription_eq_error_iff {v : Violation} :
    Model.ofDescription d c = .error v ↔ ∃ k : Check, k.FirstFails d c v := by
  rw [← void_eq_error_iff, void_ofDescription, forM_eq_error_iff]
  have hsorted : (Check.sequence d).Pairwise Check.Before := Check.pairwise_sequence
  constructor
  · rintro ⟨before, k, after, hsequence, hbefore, hk⟩
    rw [hsequence, List.pairwise_append, List.pairwise_cons] at hsorted
    refine ⟨k, hk, fun j hj => ?_⟩
    -- a check made before `k` stands in front of it, since the row is in order
    by_cases hmem : j ∈ Check.sequence d
    · rw [hsequence, List.mem_append, List.mem_cons] at hmem
      rcases hmem with hmem | rfl | hmem
      · exact hbefore j hmem
      · exact absurd hj (Check.not_before_of_before hj)
      · exact absurd hj (Check.not_before_of_before (hsorted.2.1.1 j hmem))
    · exact Check.outcome_of_notMem hmem
  · rintro ⟨k, hk, hearlier⟩
    have hmem : k ∈ Check.sequence d := by
      by_contra hmem
      rw [Check.outcome_of_notMem hmem] at hk
      cases hk
    obtain ⟨before, after, hsequence⟩ := List.append_of_mem hmem
    rw [hsequence, List.pairwise_append] at hsorted
    exact ⟨before, k, after, hsequence,
      fun j hj => hearlier j (hsorted.2.2 j hj k List.mem_cons_self), hk⟩

end Stages

end Validation

end FitScript
