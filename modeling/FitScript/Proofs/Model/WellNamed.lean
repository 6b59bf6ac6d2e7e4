import FitScript.Proofs.Name.Joined
import FitScript.Proofs.Validation.Valid

/-!
# Names in validated models

* `Model.WellNamed`: what validation promises about the names of a model and about the convention
  of its formula.
* `isSyntactic_interactionName_iff`: exactly which interactions of a validated model have a name
  that can stand unquoted, and the joiners under which all of them have.
-/

namespace FitScript

/-- The names of a model and its convention are such that its formula can be read. -/
structure Model.WellNamed (model : Model) : Prop where
  separator : Text.trim model.convention.termSeparator = "+"
  joiner : ∀ c ∈ model.convention.interactionJoiner.toList, Name.isNameChar c
  dependent : Name.isSyntactic model.dependent.name
  independents : model.independents ≠ [] ∧ ∀ v ∈ model.independents, Name.isSyntactic v.name
  interactions : ∀ i ∈ model.interactions,
    2 ≤ i.factors.length ∧ ∀ name ∈ i.factors, Name.isSyntactic name
  randomEffects : ∀ e ∈ model.randomEffects,
    Name.isSyntactic e.group ∧ ∀ name ∈ e.slopes, Name.isSyntactic name

namespace Validation

/-- The names of a validated model are in order. -/
theorem wellNamed_of_ofDescription {d : Description} {c : Convention} {model : Model}
    (h : Model.ofDescription d c = .ok model) : model.WellNamed := by
  obtain ⟨hv, hr⟩ := ofDescription_eq_ok_iff.mp h
  obtain ⟨id, dependent, independents, interactions, effects, family, link, convention⟩ := model
  obtain ⟨-, hdep, hind, hint, hran, -, hconv⟩ := hr
  simp only at hdep hind hint hran hconv
  subst hind hint hran hconv
  obtain ⟨y, hy, rfl⟩ := Option.map_eq_some_iff.mp hdep
  have hentries := hv.entries
  simp only [Description.entries, hy, Option.toList_some, List.cons_append, List.nil_append,
    List.forall_mem_cons] at hentries
  have hpred : ∀ name ∈ d.predictors, Name.isSyntactic name := by
    intro name hname
    obtain ⟨entry, hentry, rfl⟩ := List.mem_map.mp hname
    exact (hentries.2 entry hentry).syntactic
  constructor
  · exact hv.separator
  · exact Name.isNameChar_joiner hv.joiner
  · exact hentries.1.syntactic
  · refine ⟨by simpa using hv.independent, ?_⟩
    intro v hvar
    obtain ⟨entry, hentry, rfl⟩ := List.mem_map.mp hvar
    exact (hentries.2 entry hentry).syntactic
  · intro i hi
    obtain ⟨term, hterm, rfl⟩ := List.mem_map.mp hi
    have hvalid := hv.interactions term hterm
    exact ⟨hvalid.two_le, fun name hname => hpred name (hvalid.declared name hname)⟩
  · intro e he
    obtain ⟨entry, hentry, rfl⟩ := List.mem_map.mp he
    have hvalid := hv.random entry hentry
    exact ⟨hvalid.syntactic, fun name hname => hpred name (hvalid.declared name hname)⟩

end Validation

namespace Model

/-- **Names of interactions.** In a validated model the name of an independent variable can always
    stand unquoted. The name of an interaction can iff it is not reserved and its first variable is
    not a dot with a digit of the joiner behind it. A safe joiner rules both out. -/
theorem isSyntactic_interactionName_iff {d : Description} {c : Convention} {model : Model}
    (h : ofDescription d c = .ok model) :
    (∀ v ∈ model.independents, Name.isSyntactic v.name) ∧
      (∀ i ∈ model.interactions, Name.isSyntactic (i.name c.interactionJoiner) ↔
        ¬ (i.factors.head? = some "." ∧ Name.startsWithDigit c.interactionJoiner) ∧
          i.name c.interactionJoiner ∉ Name.reserved) ∧
      (Name.IsSafeJoiner c.interactionJoiner →
        ∀ name ∈ model.interactionNames, Name.isSyntactic name) := by
  have hn := Validation.wellNamed_of_ofDescription h
  have hconv := (Validation.ofDescription_eq_ok_iff.mp h).2.convention
  have hjoiner := hn.joiner
  rw [hconv] at hjoiner
  -- an interaction has a first and a second variable
  have hfactors : ∀ i ∈ model.interactions, ∃ first second others,
      i.factors = first :: second :: others ∧
        ∀ name ∈ first :: second :: others, Name.isSyntactic name := by
    intro i hi
    obtain ⟨htwo, hnames⟩ := hn.interactions i hi
    match hf : i.factors with
    | [] => simp [hf] at htwo
    | [_] => simp [hf] at htwo
    | first :: second :: others => exact ⟨first, second, others, rfl, hf ▸ hnames⟩
  refine ⟨hn.independents.2, ?_, ?_⟩
  · intro i hi
    obtain ⟨first, second, others, hf, hnames⟩ := hfactors i hi
    rw [Interaction.name, hf, Name.isSyntactic_intercalate_iff hjoiner hnames, List.head?_cons,
      Option.some.injEq]
  · intro hsafe name hname
    obtain ⟨i, hi, rfl⟩ := List.mem_map.mp hname
    obtain ⟨first, second, others, hf, hnames⟩ := hfactors i hi
    rw [Interaction.name, hf, hconv]
    exact Name.isSyntactic_intercalate_of_safe hsafe hjoiner hnames

/-- Three variables, one of them a dot, and two interactions. -/
def dottedPairs : Description :=
  { Description.empty with
    dependent := some (.bare "out")
    independent := [.bare ".", .bare "x", .bare "y"]
    interactions := [[".", "x"], ["x", "y"]]
    family := some "gaussian" }

/-- With a digit as the joiner, a leading dot makes the difference. -/
theorem isSyntactic_interactionName_digit : ∃ model,
    ofDescription dottedPairs ⟨"+", "1"⟩ = .ok model ∧
      model.interactionNames = [".1x", "x1y"] ∧
      ¬ Name.isSyntactic ".1x" ∧ Name.isSyntactic "x1y" := by
  obtain ⟨model, h⟩ : ∃ model, ofDescription dottedPairs ⟨"+", "1"⟩ = .ok model := ⟨_, rfl⟩
  obtain ⟨-, hnames, -⟩ := isSyntactic_interactionName_iff h
  cases h
  have hdot := hnames ⟨[".", "x"]⟩ (by simp)
  have hxy := hnames ⟨["x", "y"]⟩ (by simp)
  refine ⟨_, rfl, rfl, ?_, ?_⟩
  · rw [show ".1x" = Interaction.name ⟨[".", "x"]⟩ "1" from rfl, hdot]
    decide
  · rw [show "x1y" = Interaction.name ⟨["x", "y"]⟩ "1" from rfl, hxy]
    decide

/-- Two variables with names of one letter and their interaction. -/
def letterPair : Description :=
  { Description.empty with
    dependent := some (.bare "y")
    independent := [.bare "i", .bare "f"]
    interactions := [["i", "f"]]
    family := some "gaussian" }

/-- Under the empty joiner, which is accepted, two names can make a reserved word. -/
theorem interactionName_reserved :
    (ofDescription letterPair ⟨"+", ""⟩).map interactionNames = .ok ["if"] ∧
      "if" ∈ Name.reserved ∧ Name.isSyntactic "if" = false :=
  ⟨rfl, by decide, by decide⟩

end Model

end FitScript
