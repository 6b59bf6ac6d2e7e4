import FitScript.Proofs.Formula.Reading

/-!
# Words of formulas

The names that a formula mentions, found in its text alone: they are the longest runs of name
characters.

* `Formula.words`: the words of a text.
* `runs_intercalate`: marks between texts add no word, and keep the words of the texts apart.
* `parts`: the words of a random effect's term.
* `words_rightHandSide`: the words on the right-hand side of a model's formula are its independent
  variables, its interactions, and the intercept, slopes and group of each random effect.
-/

namespace FitScript.Formula

/-- The longest runs of name characters. -/
def runs (cs : List Char) : List (List Char) :=
  (cs.splitOnP (!Name.isNameChar ·)).filter (· ≠ [])

/-- The words of a text: its longest runs of name characters. -/
def words (text : String) : List String :=
  (runs text.toList).map String.ofList

example : words "y ~ a + .b1+(1+a|g)" = ["y", "a", ".b1", "1", "a", "g"] := by decide

/-! ## Runs -/

theorem runs_nil : runs [] = [] :=
  rfl

/-- A character that stands in no name divides a text. -/
theorem runs_append_cons {c : Char} (hc : Name.isNameChar c = false) (before after : List Char) :
    runs (before ++ c :: after) = runs before ++ runs after := by
  unfold runs
  rw [List.splitOnP_append_cons before after (by simpa using hc), List.filter_append]

theorem runs_cons {c : Char} (hc : Name.isNameChar c = false) (rest : List Char) :
    runs (c :: rest) = runs rest :=
  runs_append_cons hc [] rest

/-- Marks in front of a text add no run. -/
theorem runs_append_of_marks {marks : List Char} (h : ∀ c ∈ marks, Name.isNameChar c = false)
    (rest : List Char) : runs (marks ++ rest) = runs rest := by
  induction marks with
  | nil => rfl
  | cons c marks ih =>
    rw [List.forall_mem_cons] at h
    rw [List.cons_append, runs_cons h.1, ih h.2]

/-- A text of name characters is one run. -/
theorem runs_of_isNameChar {cs : List Char} (hne : cs ≠ []) (h : ∀ c ∈ cs, Name.isNameChar c) :
    runs cs = [cs] := by
  unfold runs
  rw [List.splitOnP_eq_singleton fun c hc => by simpa using h c hc]
  simp [hne]

/-- Each of some names is one run. -/
theorem flatMap_runs {names : List String}
    (h : ∀ name ∈ names, name.toList ≠ [] ∧ ∀ c ∈ name.toList, Name.isNameChar c) :
    (names.map String.toList).flatMap runs = names.map String.toList := by
  induction names with
  | nil => rfl
  | cons name rest ih =>
    rw [List.forall_mem_cons] at h
    rw [List.map_cons, List.flatMap_cons, runs_of_isNameChar h.1.1 h.1.2, ih h.2]
    rfl

/-- Texts with marks between them have the runs of each of them. -/
theorem runs_intercalate {separator : List Char} (hne : separator ≠ [])
    (hmarks : ∀ c ∈ separator, Name.isNameChar c = false) (parts : List (List Char)) :
    runs (separator.intercalate parts) = parts.flatMap runs := by
  obtain ⟨c, marks, rfl⟩ := List.exists_cons_of_ne_nil hne
  rw [List.forall_mem_cons] at hmarks
  induction parts with
  | nil => rfl
  | cons part rest ih =>
    cases rest with
    | nil => rw [List.intercalate_singleton, List.flatMap_singleton]
    | cons next rest =>
      rw [List.intercalate_cons_cons, List.append_assoc, List.cons_append,
        runs_append_cons hmarks.1, runs_append_of_marks hmarks.2, ih]
      exact List.flatMap_cons.symm

/-! ## Words of models -/

/-- No blank stands in a name. -/
theorem isNameChar_of_isBlank {c : Char} (h : Text.isBlank c) : Name.isNameChar c = false := by
  by_contra hname
  rw [Bool.not_eq_false] at hname
  rw [Name.isBlank_of_isNameChar hname] at h
  cases h

/-- The intercept, slopes and group of a random effect. -/
def parts (effect : RandomEffect) : List String :=
  "1" :: (effect.slopes ++ [effect.group])

/-- The words of a random effect's term. -/
theorem runs_term {effect : RandomEffect} (hgroup : Name.isSyntactic effect.group)
    (hslopes : ∀ name ∈ effect.slopes, Name.isSyntactic name) :
    runs (effect.term "+").toList = (parts effect).map String.toList := by
  have hparts : ∀ name ∈ "1" :: effect.slopes,
      name.toList ≠ [] ∧ ∀ c ∈ name.toList, Name.isNameChar c := by
    rw [List.forall_mem_cons]
    refine ⟨⟨List.cons_ne_nil '1' [], List.forall_mem_singleton.mpr (by decide)⟩, ?_⟩
    intro name hname
    exact ⟨Name.toList_ne_nil_of_isSyntactic (hslopes name hname),
      Name.isNameChar_of_isSyntactic (hslopes name hname)⟩
  have hleft : runs (['+'].intercalate (['1'] :: effect.slopes.map String.toList)) =
      ("1" :: effect.slopes).map String.toList := by
    rw [runs_intercalate (by simp) (List.forall_mem_singleton.mpr (by decide))]
    exact flatMap_runs hparts
  have hright : runs effect.group.toList = [effect.group.toList] :=
    runs_of_isNameChar (Name.toList_ne_nil_of_isSyntactic hgroup)
      (Name.isNameChar_of_isSyntactic hgroup)
  rw [toList_term, runs_cons (by decide), runs_append_cons (by decide), runs_nil, List.append_nil,
    innerText, runs_append_cons (by decide), hleft, hright]
  simp [parts]

/-- The words of the terms of random effects. -/
theorem flatMap_runs_terms {effects : List RandomEffect}
    (h : ∀ e ∈ effects, Name.isSyntactic e.group ∧ ∀ name ∈ e.slopes, Name.isSyntactic name) :
    ((effects.map (·.term "+")).map String.toList).flatMap runs =
      (effects.flatMap parts).map String.toList := by
  induction effects with
  | nil => rfl
  | cons effect rest ih =>
    rw [List.forall_mem_cons] at h
    rw [List.map_cons, List.map_cons, List.flatMap_cons, runs_term h.1.1 h.1.2, ih h.2,
      List.flatMap_cons, List.map_append]

/-- **The words on the right-hand side of a formula** are the independent variables, the
    interactions, and the intercept, slopes and group of each random effect. -/
theorem words_rightHandSide {model : Model} (hn : model.WellNamed) :
    words model.rightHandSide = model.independents.map (·.name) ++ model.interactionNames ++
      model.randomEffects.flatMap parts := by
  obtain ⟨front, back, hfront, hback, hseparator⟩ := exists_separator hn
  have hmarks : ∀ c ∈ front ++ '+' :: back, Name.isNameChar c = false := by
    rw [List.forall_mem_append, List.forall_mem_cons]
    exact ⟨fun c hc => isNameChar_of_isBlank (hfront c hc), by decide,
      fun c hc => isNameChar_of_isBlank (hback c hc)⟩
  have hruns : runs model.rightHandSide.toList =
      (model.independents.map (·.name) ++ model.interactionNames ++
        model.randomEffects.flatMap parts).map String.toList := by
    rw [Model.rightHandSide, String.toList_intercalate, hseparator,
      runs_intercalate (by simp) hmarks, terms_eq hn, List.map_append, List.flatMap_append,
      flatMap_runs fun name hname => isNameChar_of_mem_variables hn hname,
      flatMap_runs_terms hn.randomEffects, ← List.map_append]
  rw [words, hruns, List.map_map]
  exact (List.map_congr_left fun name _ => String.ofList_toList).trans (List.map_id _)

end FitScript.Formula
