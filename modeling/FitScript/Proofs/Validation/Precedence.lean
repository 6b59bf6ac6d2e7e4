import FitScript.Proofs.Validation.Checks

/-!
# The first violation decides

What stands behind the first violation of a description has no influence on the report.

* `Check.Alike`: what a check looks at, beyond what the checks before it look at.
* `Check.outcome_congr`: a check reports the same where all of that is the same.
* `ofDescription_eq_error_of_alike`: so does validation, up to the first check that fails.
-/

namespace FitScript

namespace Validation

open Outcome

variable {α β : Type} {d d' : Description} {c c' : Convention}

namespace Check

/-- Two descriptions with their conventions do not differ in what a check looks at and no earlier
    one does: an entry of a list, if it has one there, or another part of a description. -/
def Alike (d d' : Description) (c c' : Convention) : Check → Prop
  | separator => c.termSeparator = c'.termSeparator
  | joiner => c.interactionJoiner = c'.interactionJoiner
  | dependent => d.dependent = d'.dependent
  | someIndependent => d.independent = [] ↔ d'.independent = []
  | independent i => d.independent[i]? = d'.independent[i]?
  | interaction i => d.interactions[i]? = d'.interactions[i]?
  | randomEffect i => d.random[i]? = d'.random[i]?
  | family => d.family = d'.family
  | link => d.link = d'.link
  | support | likelihood => True

/-- Two descriptions with their conventions do not differ in what a check and all earlier ones look
    at. What later ones look at may be anything. -/
def AlikeUpTo (k : Check) (d d' : Description) (c c' : Convention) : Prop :=
  ∀ j : Check, j.Before k ∨ j = k → j.Alike d d' c c'

theorem Before.trans {j k l : Check} (hjk : j.Before k) (hkl : k.Before l) : j.Before l := by
  unfold Before at hjk hkl ⊢
  omega

theorem AlikeUpTo.of_before {j k : Check} (h : k.AlikeUpTo d d' c c') (hj : j.Before k) :
    j.AlikeUpTo d d' c c' := by
  rintro i (hi | rfl)
  · exact h i (.inl (hi.trans hj))
  · exact h i (.inl hj)

theorem AlikeUpTo.self {k : Check} (h : k.AlikeUpTo d d' c c') : k.Alike d d' c c' :=
  h k (.inr rfl)

theorem AlikeUpTo.of_stage {k : Check} (h : k.AlikeUpTo d d' c c') (j : Check)
    (hj : j.stage < k.stage) : j.Alike d d' c c' :=
  h j (.inl (.inl hj))

/-- Descriptions that are alike up to a position of a list are alike in all entries up to there. -/
theorem AlikeUpTo.of_le (check : Nat → Check) (hcheck : ∀ i j, j < i → (check j).Before (check i))
    {i j : Nat} (h : (check i).AlikeUpTo d d' c c') (hj : j ≤ i) :
    (check j).Alike d d' c c' := by
  rcases Nat.lt_or_eq_of_le hj with hj | rfl
  · exact h _ (.inl (hcheck i j hj))
  · exact h.self

end Check

/-! ## What a check reports -/

theorem inScope_congr {step : Scope → List α → α → Except Violation β} {xs ys : List α} {i : Nat}
    (hscope : scope? d c = scope? d' c') (h : ∀ j ≤ i, xs[j]? = ys[j]?) :
    inScope d c step xs i = inScope d' c' step ys i := by
  rw [inScope, inScope, hscope]
  cases scope? d' c' with
  | none => rfl
  | some scope => exact atPosition_congr h

/-- Of what is in scope, independent variables only depend on the dependent one. -/
theorem inScope_independentAfter_congr {xs ys : List VariableEntry} {i : Nat}
    (hdependent : d.dependent = d'.dependent) (h : ∀ j ≤ i, xs[j]? = ys[j]?) :
    inScope d c independentAfter xs i = inScope d' c' independentAfter ys i := by
  cases hy : d.dependent with
  | none =>
    rw [inScope, inScope, scope?, scope?, ← hdependent, hy]
    rfl
  | some y =>
    rw [inScope_eq hy, inScope_eq (hdependent ▸ hy)]
    exact atPosition_congr h

namespace Check

theorem AlikeUpTo.scope?_eq {k : Check} (h : k.AlikeUpTo d d' c c') (hk : 3 < k.stage) :
    scope? d c = scope? d' c' := by
  have hdependent : d.dependent = d'.dependent :=
    h.of_stage .dependent (Nat.lt_trans (by decide) hk)
  have hjoiner : c.interactionJoiner = c'.interactionJoiner :=
    h.of_stage .joiner (Nat.lt_trans (by decide) hk)
  have hindependent : d.independent = d'.independent :=
    List.ext_getElem? fun j => h.of_stage (.independent j) hk
  rw [scope?, scope?, hdependent, hjoiner, Description.predictors, hindependent]
  rfl

theorem AlikeUpTo.random_eq {k : Check} (h : k.AlikeUpTo d d' c c') (hk : 5 < k.stage) :
    d.random = d'.random :=
  List.ext_getElem? fun j => h.of_stage (.randomEffect j) hk

/-- A check reports the same where it and all earlier ones look at the same. -/
theorem outcome_congr {k : Check} (h : k.AlikeUpTo d d' c c') :
    k.outcome d c = k.outcome d' c' := by
  cases k with
  | separator =>
    have hseparator : c.termSeparator = c'.termSeparator := h.self
    rw [outcome, outcome, hseparator]
  | joiner =>
    have hjoiner : c.interactionJoiner = c'.interactionJoiner := h.self
    rw [outcome, outcome, hjoiner]
  | dependent =>
    have hdependent : d.dependent = d'.dependent := h.self
    rw [outcome, outcome, hdependent]
  | someIndependent =>
    have hempty : d.independent = [] ↔ d'.independent = [] := h.self
    rw [outcome, outcome]
    simp only [hempty]
  | independent i =>
    have hdependent : d.dependent = d'.dependent := h.of_stage .dependent (by simp [stage])
    have horder (i j : Nat) (hj : j < i) : (independent j).Before (independent i) :=
      .inr ⟨rfl, Nat.succ_lt_succ hj⟩
    exact inScope_independentAfter_congr hdependent fun j => h.of_le independent horder
  | interaction i =>
    have hscope : scope? d c = scope? d' c' := h.scope?_eq (by simp [stage])
    have horder (i j : Nat) (hj : j < i) : (interaction j).Before (interaction i) := .inr ⟨rfl, hj⟩
    exact inScope_congr hscope fun j => h.of_le interaction horder
  | randomEffect i =>
    have hscope : scope? d c = scope? d' c' := h.scope?_eq (by simp [stage])
    have horder (i j : Nat) (hj : j < i) : (randomEffect j).Before (randomEffect i) :=
      .inr ⟨rfl, hj⟩
    exact inScope_congr hscope fun j => h.of_le randomEffect horder
  | family =>
    have hfamily : d.family = d'.family := h.self
    rw [outcome, outcome, hfamily]
  | link =>
    have hfamily : d.family = d'.family := h.of_stage .family (by simp [stage])
    have hlink : d.link = d'.link := h.self
    rw [outcome, outcome, hfamily, hlink]
  | support =>
    have hfamily : d.family = d'.family := h.of_stage .family (by simp [stage])
    have hlink : d.link = d'.link := h.of_stage .link (by simp [stage])
    rw [outcome, outcome, hfamily, hlink]
  | likelihood =>
    have hfamily : d.family = d'.family := h.of_stage .family (by simp [stage])
    rw [outcome, outcome, hfamily, h.random_eq (by simp [stage])]

theorem FirstFails.of_alikeUpTo {k : Check} {v : Violation} (h : k.FirstFails d c v)
    (halike : k.AlikeUpTo d d' c c') : k.FirstFails d' c' v where
  reports := outcome_congr halike ▸ h.reports
  earlier j hj := outcome_congr (halike.of_before hj) ▸ h.earlier j hj

end Check

/-- **The first violation decides.** A description is rejected with what the first failing check
    reports, and every other one that does not differ in what this check and the earlier ones look
    at is rejected with the same violation, whatever stands behind. -/
theorem ofDescription_eq_error_of_alike {v : Violation} :
    (Model.ofDescription d c = .error v ↔ ∃ k : Check, k.FirstFails d c v) ∧
      ∀ k : Check, k.FirstFails d c v → ∀ d' c', k.AlikeUpTo d d' c c' →
        k.FirstFails d' c' v ∧ Model.ofDescription d' c' = .error v := by
  refine ⟨ofDescription_eq_error_iff, ?_⟩
  intro k hk d' c' halike
  have hk' : k.FirstFails d' c' v := hk.of_alikeUpTo halike
  exact ⟨hk', ofDescription_eq_error_iff.mpr ⟨k, hk'⟩⟩

/-- An interaction of a variable that is not there, behind one that is in order. -/
def strayFactor : Description :=
  { Description.empty with
    dependent := some (.bare "y")
    independent := [.bare "a", .bare "b"]
    interactions := [["a", "b"], ["b", "z"]]
    family := some "gaussian" }

/-- The same with more to find fault with, all of it further back. -/
def strayFactorAndMore : Description :=
  { strayFactor with
    interactions := strayFactor.interactions ++ [["a"], ["b", "a"]]
    random := [⟨"y", ["z"]⟩]
    family := none
    link := some "wobble" }

/-- The interaction at the second position decides, in both descriptions. -/
theorem ofDescription_eq_error_of_alike_stray :
    (Check.interaction 1).FirstFails strayFactor .default
        (.undeclaredInteractionVariable "z" ["b", "z"]) ∧
      (Check.interaction 1).AlikeUpTo strayFactor strayFactorAndMore .default .default ∧
      Model.ofDescription strayFactorAndMore .default =
        .error (.undeclaredInteractionVariable "z" ["b", "z"]) := by
  have hfirst : (Check.interaction 1).FirstFails strayFactor .default
      (.undeclaredInteractionVariable "z" ["b", "z"]) := by
    have hearlier : ∀ j ∈ Check.sequence strayFactor, j.Before (.interaction 1) →
        j.outcome strayFactor .default = .ok () := by decide
    refine ⟨rfl, fun j hj => ?_⟩
    by_cases hmem : j ∈ Check.sequence strayFactor
    · exact hearlier j hmem hj
    · exact Check.outcome_of_notMem hmem
  have halike : (Check.interaction 1).AlikeUpTo strayFactor strayFactorAndMore
      .default .default := by
    intro j hj
    cases j with
    | interaction i =>
      have hi : i = 0 ∨ i = 1 := by
        simp only [Check.Before, Check.stage, Check.index, Check.interaction.injEq] at hj
        omega
      rcases hi with rfl | rfl
      · rfl
      · rfl
    | randomEffect i => simp [Check.Before, Check.stage] at hj
    | family => simp [Check.Before, Check.stage] at hj
    | link => simp [Check.Before, Check.stage] at hj
    | support => trivial
    | likelihood => trivial
    | someIndependent => exact Iff.rfl
    | _ => rfl
  exact ⟨hfirst, halike, (ofDescription_eq_error_of_alike.2 _ hfirst _ _ halike).2⟩

end Validation

end FitScript
