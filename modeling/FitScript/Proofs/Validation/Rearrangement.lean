import Mathlib.Data.List.Perm.Basic
import FitScript.Proofs.Validation.Valid

/-!
# Terms in another order

What becomes of a model when its parts are declared in another order, or some of its terms are
left out.

* `Selection`: what is kept of a list, and in which order.
* `Description.Reorders`: a description with the independent variables of another one in any
  order, and with a selection of its terms.
* `Description.Valid.of_reorders`: the rules do not depend on the order, and ask for no term.
* `ofDescription_reorders`: such a description is accepted if the other one is, and its model has
  the same parts in the new order.
-/

namespace FitScript

/-- A way to keep some of the entries of a list, in any order and whatever the entries are. -/
structure Selection where
  /-- The first list keeps entries of the second one. -/
  Keeps {α : Type} : List α → List α → Prop
  subperm {α : Type} {xs ys : List α} : Keeps xs ys → xs.Subperm ys
  map {α β : Type} {f : α → β} {xs ys : List α} : Keeps xs ys → Keeps (xs.map f) (ys.map f)

namespace Selection

/-- All entries, in any order. -/
def whole : Selection where
  Keeps := List.Perm
  subperm h := h.subperm
  map h := h.map _

/-- Some or all of the entries, in any order. -/
def part : Selection where
  Keeps := List.Subperm
  subperm h := h
  map := by
    rintro α β f xs ys ⟨zs, hperm, hsublist⟩
    exact ⟨zs.map f, hperm.map f, hsublist.map f⟩

/-- Each entry of `xs` is a changed entry of `ys`, changed by `S`, and those are a selection. -/
def KeepsChanged (selection : Selection) {α : Type} (S : α → α → Prop) (xs ys : List α) : Prop :=
  ∃ kept, selection.Keeps kept ys ∧ List.Forall₂ S xs kept

end Selection

/-- A random effect of the same group, with a selection of the slopes. -/
structure RandomEntry.Reorders (selection : Selection) (entry' entry : RandomEntry) : Prop where
  group : entry'.group = entry.group
  slopes : selection.Keeps entry'.slopes entry.slopes

/-- The description `d'` has the independent variables of `d` in any order, and a selection of the
    interactions, the random effects and their slopes. The rest is the same. -/
structure Description.Reorders (selection : Selection) (d' d : Description) : Prop where
  rest : d' = { d with
    independent := d'.independent, interactions := d'.interactions, random := d'.random }
  independent : d'.independent.Perm d.independent
  interactions : selection.Keeps d'.interactions d.interactions
  random : selection.KeepsChanged (RandomEntry.Reorders selection) d'.random d.random

/-- A random effect of the same group, with a selection of the slopes. -/
structure RandomEffect.Reorders (selection : Selection) (effect' effect : RandomEffect) :
    Prop where
  group : effect'.group = effect.group
  slopes : selection.Keeps effect'.slopes effect.slopes

/-- The model `model'` has the independent variables of `model` in any order, and a selection of
    the interactions, the random effects and their slopes. The rest is the same. -/
structure Model.Reorders (selection : Selection) (model' model : Model) : Prop where
  rest : model' = { model with
    independents := model'.independents, interactions := model'.interactions,
    randomEffects := model'.randomEffects }
  independents : model'.independents.Perm model.independents
  interactions : selection.Keeps model'.interactions model.interactions
  randomEffects :
    selection.KeepsChanged (RandomEffect.Reorders selection) model'.randomEffects
      model.randomEffects

namespace Description

variable {selection : Selection} {d d' : Description} {c : Convention}

/-! ## The parts of a description -/

theorem Reorders.dependent_eq (h : d'.Reorders selection d) : d'.dependent = d.dependent := by
  rw [h.rest]

theorem Reorders.family_eq (h : d'.Reorders selection d) : d'.family = d.family := by
  rw [h.rest]

theorem Reorders.link_eq (h : d'.Reorders selection d) : d'.link = d.link := by
  rw [h.rest]

theorem Reorders.perm_predictors (h : d'.Reorders selection d) :
    d'.predictors.Perm d.predictors :=
  h.independent.map _

theorem Reorders.perm_entries (h : d'.Reorders selection d) : d'.entries.Perm d.entries := by
  rw [entries, entries, h.dependent_eq]
  exact h.independent.append_left _

theorem Reorders.perm_names (h : d'.Reorders selection d) : d'.names.Perm d.names :=
  h.perm_entries.map _

theorem Reorders.subperm_groups (h : d'.Reorders selection d) :
    (d'.random.map (·.group)).Subperm (d.random.map (·.group)) := by
  obtain ⟨kept, hkept, hchanged⟩ := h.random
  have hgroups : d'.random.map (·.group) = kept.map (·.group) := by
    rw [← List.forall₂_eq_eq_eq, List.forall₂_map_left_iff, List.forall₂_map_right_iff]
    exact hchanged.imp fun _ _ hentry => hentry.group
  rw [hgroups]
  exact Selection.part.map (selection.subperm hkept)

/-- Each random effect that is kept is one of the other description, with some of its slopes. -/
theorem Reorders.exists_random (h : d'.Reorders selection d) {entry' : RandomEntry}
    (hentry' : entry' ∈ d'.random) : ∃ entry ∈ d.random, entry'.Reorders selection entry := by
  obtain ⟨kept, hkept, hchanged⟩ := h.random
  obtain ⟨entry, hentry, hreorders⟩ := Outcome.exists_of_mem_left hchanged hentry'
  exact ⟨entry, (selection.subperm hkept).subset hentry, hreorders⟩

theorem Reorders.random_eq_nil (h : d'.Reorders selection d) (hd : d.random = []) :
    d'.random = [] := by
  obtain ⟨kept, hkept, hchanged⟩ := h.random
  rw [hd] at hkept
  rw [List.subperm_nil.mp (selection.subperm hkept)] at hchanged
  exact List.forall₂_nil_right_iff.mp hchanged

/-! ## Rules -/

/-- What holds between any two entries of a list, in either order, holds between kept ones. -/
theorem pairwise_of_subperm {α : Type} {S : α → α → Prop} (hS : ∀ {a b}, S a b → S b a)
    {xs ys : List α} (h : xs.Subperm ys) (hys : ys.Pairwise S) : xs.Pairwise S := by
  obtain ⟨zs, hperm, hsublist⟩ := h
  exact (hys.sublist hsublist).perm hperm hS

theorem Apart.symm {joiner : String} {t u : List String} (h : Apart joiner t u) :
    Apart joiner u t where
  sets hsame := h.sets fun name => (hsame name).symm
  names := h.names.symm

/-- The rules hold in any order, and for a selection of the terms. -/
theorem Valid.of_reorders (hvalid : d.Valid c) (h : d'.Reorders selection d) : d'.Valid c where
  separator := hvalid.separator
  joiner := hvalid.joiner
  dependent := h.dependent_eq ▸ hvalid.dependent
  independent hnil := hvalid.independent (List.nil_perm.mp (hnil ▸ h.independent))
  entries entry hentry := hvalid.entries entry (h.perm_entries.mem_iff.mp hentry)
  distinct := h.perm_names.nodup_iff.mpr hvalid.distinct
  interactions term hterm := by
    have hold := hvalid.interactions term ((selection.subperm h.interactions).subset hterm)
    exact
      { two_le := hold.two_le
        nodup := hold.nodup
        declared := fun name hname => h.perm_predictors.mem_iff.mpr (hold.declared name hname)
        fresh := fun hmem => hold.fresh (h.perm_names.mem_iff.mp hmem) }
  apart := pairwise_of_subperm Apart.symm (selection.subperm h.interactions) hvalid.apart
  random entry' hentry' := by
    obtain ⟨entry, hentry, hreorders⟩ := h.exists_random hentry'
    have hold := hvalid.random entry hentry
    exact
      { syntactic := hreorders.group ▸ hold.syntactic
        not_dependent := fun y hy => hreorders.group ▸ hold.not_dependent y (h.dependent_eq ▸ hy)
        declared := fun name hname => h.perm_predictors.mem_iff.mpr
          (hold.declared name ((selection.subperm hreorders.slopes).subset hname)) }
  groups := pairwise_of_subperm Ne.symm h.subperm_groups hvalid.groups
  fit := by
    obtain ⟨family, link, hfits⟩ := hvalid.fit
    exact ⟨family, link,
      { named := h.family_eq ▸ hfits.named
        linked := h.link_eq ▸ hfits.linked
        supported := hfits.supported
        likelihood := fun hquasi => h.random_eq_nil (hfits.likelihood hquasi) }⟩

/-! ## All terms in another order -/

theorem rest_symm (h : d' = { d with
    independent := d'.independent, interactions := d'.interactions, random := d'.random }) :
    d = { d' with
      independent := d.independent, interactions := d.interactions, random := d.random } := by
  rw [h]

/-- Descriptions that only differ in the order of their parts do so in both directions. -/
theorem Reorders.symm (h : d'.Reorders .whole d) : d.Reorders .whole d' where
  rest := rest_symm h.rest
  independent := h.independent.symm
  interactions := List.Perm.symm h.interactions
  random := by
    obtain ⟨kept, hkept, hchanged⟩ := h.random
    have hback : List.Forall₂ (RandomEntry.Reorders .whole) kept d'.random :=
      hchanged.flip.imp fun _ _ hentry => ⟨hentry.group.symm, List.Perm.symm hentry.slopes⟩
    -- this undoes the changes before the selection, and the definition asks for the other order
    obtain ⟨kept', hchanged', hkept'⟩ := List.perm_comp_forall₂ (List.Perm.symm hkept) hback
    exact ⟨kept', hkept', hchanged'⟩

end Description

namespace Validation

variable {selection : Selection} {d d' : Description} {c : Convention}

/-- The models of two descriptions are ordered as these are. -/
theorem reorders_of_represents {model model' : Model} (hmodel : model.Represents d c)
    (hmodel' : model'.Represents d' c) (h : d'.Reorders selection d) :
    model'.Reorders selection model where
  rest := by
    have hid : model'.id = model.id := by
      rw [hmodel.id, hmodel'.id, h.rest]
    have hdependent : model'.dependent = model.dependent := by
      rw [← Option.some.injEq, ← hmodel.dependent, ← hmodel'.dependent, h.dependent_eq]
    have hfamily : model'.family = model.family := by
      rw [← Option.some.injEq, ← hmodel.fit.named, ← hmodel'.fit.named, h.family_eq]
    have hlink : model'.link = model.link := by
      rw [← Option.some.injEq, ← hmodel.fit.linked, ← hmodel'.fit.linked, h.link_eq, hfamily]
    have hconvention : model'.convention = model.convention :=
      hmodel'.convention.trans hmodel.convention.symm
    rw [← hid, ← hdependent, ← hfamily, ← hlink, ← hconvention]
  independents := by
    rw [hmodel.independents, hmodel'.independents]
    exact h.independent.map _
  interactions := by
    rw [hmodel.interactions, hmodel'.interactions]
    exact selection.map h.interactions
  randomEffects := by
    obtain ⟨kept, hkept, hchanged⟩ := h.random
    rw [hmodel.randomEffects, hmodel'.randomEffects]
    refine ⟨_, selection.map hkept, ?_⟩
    rw [List.forall₂_map_left_iff, List.forall₂_map_right_iff]
    exact hchanged.imp fun _ _ hentry => ⟨hentry.group, hentry.slopes⟩

/-- **The order does not matter, and terms can be dropped.** A description with the independent
    variables of an accepted one in any order, and with a selection of its terms, is accepted. Its
    model has the parts of the description in their order, the family and the link of the other
    model, and the same selection of its terms. If all terms are kept, acceptance goes both ways. -/
theorem ofDescription_reorders :
    (∀ (selection : Selection) (model : Model), d'.Reorders selection d →
      Model.ofDescription d c = .ok model → ∃ model', Model.ofDescription d' c = .ok model' ∧
        model'.Represents d' c ∧ model'.Reorders selection model) ∧
      (d'.Reorders .whole d → ((∃ model, Model.ofDescription d c = .ok model) ↔
        ∃ model', Model.ofDescription d' c = .ok model')) := by
  constructor
  · intro selection model h hmodel
    obtain ⟨hvalid, hrepresents⟩ := ofDescription_eq_ok_iff.mp hmodel
    obtain ⟨model', hmodel'⟩ := accepted_iff_valid.mpr (hvalid.of_reorders h)
    have hrepresents' := (ofDescription_eq_ok_iff.mp hmodel').2
    exact ⟨model', hmodel', hrepresents', reorders_of_represents hrepresents hrepresents' h⟩
  · intro h
    rw [accepted_iff_valid, accepted_iff_valid]
    exact ⟨fun hvalid => hvalid.of_reorders h, fun hvalid => hvalid.of_reorders h.symm⟩

/-- Three variables, all interactions of two of them and two random effects. -/
def crossed : Description :=
  { Description.empty with
    dependent := some (.bare "y")
    independent := [.bare "a", .bare "b", .detailed "c" (some ["low", "high"])]
    interactions := [["a", "b"], ["b", "c"], ["a", "c"]]
    random := [⟨"year", []⟩, ⟨"site", ["a", "b", "c"]⟩]
    family := some "poisson" }

/-- The variables from last to first, two of the interactions and one of the random effects. -/
def crossedLess : Description :=
  { crossed with
    independent := crossed.independent.reverse
    interactions := [["a", "c"], ["a", "b"]]
    random := [⟨"site", ["c", "a"]⟩] }

/-- All of it in another order. -/
def crossedBack : Description :=
  { crossed with
    independent := crossed.independent.reverse
    interactions := crossed.interactions.reverse
    random := [⟨"site", ["c", "b", "a"]⟩, ⟨"year", []⟩] }

/-- Variables in another order, and fewer terms; then all terms in another order. -/
theorem ofDescription_reorders_crossed :
    (∃ model, Model.ofDescription crossedLess .default = .ok model ∧
      model.formula = "y ~ c+b+a+a_X_c+a_X_b+(1+c+a|site)" ∧ model.link = .log) ∧
      ∃ model, Model.ofDescription crossedBack .default = .ok model := by
  obtain ⟨model, h⟩ : ∃ model, Model.ofDescription crossed .default = .ok model := ⟨_, rfl⟩
  have hless : crossedLess.Reorders .part crossed :=
    { rest := rfl
      independent := by decide
      interactions := (by decide : List.Subperm [["a", "c"], ["a", "b"]] crossed.interactions)
      random := ⟨[⟨"site", ["a", "b", "c"]⟩],
        (by decide : List.Subperm _ crossed.random),
        .cons ⟨rfl, (by decide : List.Subperm ["c", "a"] ["a", "b", "c"])⟩ .nil⟩ }
  have hback : crossedBack.Reorders .whole crossed :=
    { rest := rfl
      independent := List.reverse_perm _
      interactions := List.reverse_perm _
      random := ⟨[⟨"site", ["a", "b", "c"]⟩, ⟨"year", []⟩],
        (by decide : List.Perm _ crossed.random),
        .cons ⟨rfl, List.reverse_perm ["a", "b", "c"]⟩ (.cons ⟨rfl, .refl _⟩ .nil)⟩ }
  obtain ⟨less, hmodel, -, -⟩ := ofDescription_reorders.1 .part model hless h
  refine ⟨⟨less, hmodel, ?_⟩, (ofDescription_reorders.2 hback).mp ⟨model, h⟩⟩
  cases hmodel
  exact ⟨by decide, rfl⟩

end Validation

end FitScript
