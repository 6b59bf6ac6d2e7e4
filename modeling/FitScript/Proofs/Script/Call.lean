import FitScript.Proofs.Script.Determinacy
import FitScript.Proofs.Text.Plain

/-!
# The call that fits the model

The last section of a script is a call with the formula of the model in it. Nothing but the
separator of the terms can break its line.

* `modeling_eq`: the section is the right-hand side of the formula between the head and the tail of
  the call, which are plain.
* `isPlain_rightHandSide_iff`: a right-hand side is plain iff what separates its terms is.
* `modeling_isPlainLine_iff`: so the section is a plain line iff the separator of the terms is
  padded with spaces only, or there are no two terms to separate.
* `modeling_breaks`: with a line feed in the separator it is two lines.
-/

namespace FitScript

/-! ## Formulas -/

namespace Formula

/-- The characters of a term are plain. -/
theorem isPlain_of_mem_terms {model : Model} (hn : model.WellNamed) {term : String}
    (h : term ∈ model.terms) : Text.IsPlain term := by
  have hmarks : ∀ c ∈ termMarks, Text.IsPrintable c := by simp [termMarks, Text.IsPrintable]
  intro c hc
  rcases mem_term hn h hc with hname | hmark
  · exact Text.isPrintable_of_isNameChar hname
  · exact hmarks c hmark

/-- A right-hand side is plain iff what separates its terms is, if there is anything to separate. -/
theorem isPlain_rightHandSide_iff {model : Model} (hn : model.WellNamed) :
    Text.IsPlain model.rightHandSide ↔
      Text.IsPlain model.convention.termSeparator ∨ model.terms.length = 1 := by
  have hterms : ∀ term ∈ model.terms, Text.IsPlain term := fun _ h => isPlain_of_mem_terms hn h
  unfold Text.IsPlain Model.rightHandSide
  rw [String.toList_intercalate]
  constructor
  · intro h
    match hlist : model.terms with
    | [] => exact absurd hlist (terms_ne_nil hn)
    | [_] => exact Or.inr rfl
    | first :: second :: rest =>
      rw [hlist, List.map_cons, List.map_cons] at h
      exact Or.inl fun c hc => h c (Text.mem_intercalate_of_mem_separator hc)
  · rintro (h | h) c hc
    · rcases Text.mem_intercalate hc with hc | ⟨part, hpart, hc⟩
      · exact h c hc
      · obtain ⟨term, hterm, rfl⟩ := List.mem_map.mp hpart
        exact hterms term hterm c hc
    · obtain ⟨term, hterm⟩ := List.length_eq_one_iff.mp h
      rw [hterm, List.map_singleton, List.intercalate_singleton] at hc
      exact hterms term (hterm ▸ List.mem_singleton_self term) c hc

end Formula

/-! ## Calls -/

namespace Generator

open Text

variable {g : Generator}

/-- What stands in front of the right-hand side of the formula. -/
def callHead (g : Generator) : String :=
  g.options.modelVariable ++ " <- " ++ g.fittingFunction.name ++ "(formula = " ++
    g.model.dependent.name ++ " ~ "

/-- What stands behind it. -/
def callTail (g : Generator) : String :=
  ", family = " ++ g.model.family.name ++ "(link = " ++ g.model.link.literal ++ "), data = " ++
    g.options.dataVariable ++ ")"

/-- The section that fits the model is one call. -/
theorem modeling_eq (htemplates : g.templates = .builtin) :
    g.modeling = .ok (g.callHead ++ g.model.rightHandSide ++ g.callTail ++ "\n") := by
  rw [modeling_builtin htemplates]
  unfold callHead callTail Model.formula
  simp only [String.append_assoc]

theorem isPlain_callHead (hoptions : g.options.check = .ok ()) (hn : g.model.WellNamed) :
    IsPlain g.callHead := by
  have hvariable := isPlain_of_isSyntactic (ScriptOptions.isSyntactic_of_check hoptions).2
  have hfunction : IsPlain g.fittingFunction.name := by cases g.fittingFunction <;> decide
  have hdependent := isPlain_of_isSyntactic hn.dependent
  unfold callHead
  refine ((((hvariable.append ?_).append hfunction).append ?_).append hdependent).append ?_ <;>
    decide

theorem isPlain_callTail (hoptions : g.options.check = .ok ()) : IsPlain g.callTail := by
  have hfamily : IsPlain g.model.family.name := by cases g.model.family <;> decide
  have hlink : IsPlain g.model.link.literal := by cases g.model.link <;> decide
  have hvariable := isPlain_of_isSyntactic (ScriptOptions.isSyntactic_of_check hoptions).1
  unfold callTail
  refine (((((IsPlain.append ?_ hfamily).append ?_).append hlink).append ?_).append
    hvariable).append ?_ <;> decide

/-- **When the model call is one plain line.** The separator of an accepted convention is a plus
    sign between blanks. With accepted options and the built-in templates the call is one line of
    printable ASCII characters iff these blanks are spaces, or there is one term only. -/
theorem modeling_isPlainLine_iff {d : Description} {c : Convention}
    (hmodel : Model.ofDescription d c = .ok g.model) (hoptions : g.options.check = .ok ())
    (htemplates : g.templates = .builtin) :
    (∃ front back : List Char, (∀ blank ∈ front ++ back, isBlank blank) ∧
      c.termSeparator.toList = front ++ '+' :: back) ∧
    ∃ text, g.modeling = .ok text ∧
      (IsPlainLine text ↔ IsPaddedPlus c.termSeparator ∨ g.model.terms.length = 1) := by
  have hn := Validation.wellNamed_of_ofDescription hmodel
  have hconvention := (Validation.ofDescription_eq_ok_iff.mp hmodel).2.convention
  have hseparator := hn.separator
  rw [hconvention] at hseparator
  obtain ⟨front, back, hfront, hback, htext⟩ := Formula.exists_separator hn
  rw [hconvention] at htext
  refine ⟨⟨front, back, List.forall_mem_append.mpr ⟨hfront, hback⟩, htext⟩, _,
    modeling_eq htemplates, ?_⟩
  rw [isPlainLine_append_newline, isPlain_append, isPlain_append,
    Formula.isPlain_rightHandSide_iff hn, hconvention, isPlain_iff_isPaddedPlus hseparator]
  constructor
  · rintro ⟨⟨-, h⟩, -⟩
    exact h
  · intro h
    exact ⟨⟨isPlain_callHead hoptions hn, h⟩, isPlain_callTail hoptions⟩

/-- A mixed model with an interaction, and spaces around its plus signs. -/
theorem modeling_isPlainLine_iff_spaced : ∃ model text,
    Model.ofDescription Formula.pigWeights ⟨" + ", "."⟩ = .ok model ∧
      ScriptOptions.default.check = .ok () ∧ (ofModel model).modeling = .ok text ∧
      IsPlainLine text := by
  obtain ⟨model, hmodel⟩ : ∃ model, Model.ofDescription Formula.pigWeights ⟨" + ", "."⟩ =
    .ok model := ⟨_, rfl⟩
  have hoptions : ScriptOptions.default.check = .ok () := by decide +kernel
  obtain ⟨-, text, htext, hplain⟩ :=
    modeling_isPlainLine_iff (g := ofModel model) hmodel hoptions rfl
  exact ⟨model, text, hmodel, hoptions, htext, hplain.mpr (Or.inl ⟨1, 1, rfl⟩)⟩

/-- A line feed in front of the plus sign is accepted, and breaks the call. -/
theorem modeling_breaks :
    (⟨"\n+", "_X_"⟩ : Convention).check = .ok () ∧ ¬ IsPaddedPlus "\n+" ∧
      ∃ model text, Model.ofDescription { Description.empty with
          dependent := some (.bare "y"), independent := [.bare "a", .bare "b"],
          family := some "gaussian" } ⟨"\n+", "_X_"⟩ = .ok model ∧
        (ofModel model).modeling = .ok text ∧ ¬ IsPlainLine text ∧
        text = "model <- glm(formula = y ~ a\n+b, family = gaussian(link = 'identity'), " ++
          "data = data)\n" := by
  have hbroken : ¬ IsPaddedPlus "\n+" := by
    rw [← isPlain_iff_isPaddedPlus (by decide)]
    decide
  refine ⟨by decide +kernel, hbroken, _, _, rfl, modeling_eq rfl, ?_, by decide +kernel⟩
  rw [isPlainLine_append_newline]
  decide +kernel

end Generator

end FitScript
