import FitScript.Proofs.Text.Cutting

/-!
# Rendering

* `Template.token`: the text of a token. `Template.Inert`: a text without one.
* `Template.tokenText`: a template by its tokens and what stands in front of each of them.
* `exists_tokenText`: every text is one, with no token left behind the last.
* `renderChars_tokens`, `renderChars_tokenText`: rendering puts values in the place of tokens and
  copies the rest.
-/

namespace FitScript.Template

/-- A text without a token: no closing brace stands behind an opening one. -/
def Inert (cs : List Char) : Prop :=
  ∀ before after, cs = before ++ '{' :: after → '}' ∉ after

theorem inert_of_notMem {cs : List Char} (h : '{' ∉ cs) : Inert cs := by
  rintro before after rfl
  exact absurd (List.mem_append_right _ List.mem_cons_self) h

/-- The first opening brace decides: if no closing brace follows it, there is no token. -/
theorem inert_of_notMem_behind {before after : List Char} (hopen : '{' ∉ before)
    (hclose : '}' ∉ after) : Inert (before ++ '{' :: after) := by
  intro front back heq
  rcases Text.append_cons_cases heq with ⟨-, -, rfl⟩ | ⟨between, -, rfl⟩ | ⟨between, rfl, -⟩
  · exact hclose
  · exact fun hmem => hclose (List.mem_append_right _ (List.mem_cons_of_mem _ hmem))
  · exact absurd (List.mem_append_right _ List.mem_cons_self) hopen

/-- The text of a token. -/
def token (name : String) : String :=
  "\x7b" ++ name ++ "\x7d"

theorem toList_token (name : String) : (token name).toList = '{' :: (name.toList ++ ['}']) := by
  simp [token]

theorem toList_append_token (before name after : String) :
    (before ++ token name ++ after).toList =
      before.toList ++ '{' :: (name.toList ++ '}' :: after.toList) := by
  simp [toList_token]

variable {values : Values}

theorem toList_render (template : String) :
    (render template values).toList = renderChars values template.toList :=
  String.toList_ofList

/-- What stands for a token with a value. -/
theorem replacement_of_lookup {name value : String} (h : values.lookup name = some value) :
    replacement values name.toList = value.toList := by
  rw [replacement, String.ofList_toList, h]

/-- Nothing is replaced in a text without a token. -/
theorem renderChars_of_inert {cs : List Char} (h : Inert cs) : renderChars values cs = cs := by
  rw [renderChars]
  split
  next hopen => rfl
  next before rest hopen =>
    have hclose : splitAtChar '}' rest = none :=
      splitAtChar_eq_none_iff.mpr (h before rest (splitAtChar_eq_some hopen).1)
    split
    next => rfl
    next name after hsome =>
      rw [hclose] at hsome
      exact absurd hsome (by simp)

theorem render_of_inert {template : String} (h : Inert template.toList) (values : Values) :
    render template values = template := by
  rw [render, renderChars_of_inert h, String.ofList_toList]

/-- The first token is replaced, and rendering goes on behind it. -/
theorem renderChars_token {before name : List Char} (hopen : '{' ∉ before)
    (hclose : '}' ∉ name) (after : List Char) :
    renderChars values (before ++ '{' :: (name ++ '}' :: after)) =
      before ++ replacement values name ++ renderChars values after := by
  have hfirst := Text.splitAtChar_append hopen (name ++ '}' :: after)
  have hsecond := Text.splitAtChar_append hclose after
  rw [renderChars]
  split
  next hnone =>
    rw [hfirst] at hnone
    exact absurd hnone (by simp)
  next front rest hsome =>
    rw [hfirst, Option.some.injEq, Prod.mk.injEq] at hsome
    obtain ⟨rfl, rfl⟩ := hsome
    split
    next hnone =>
      rw [hsecond] at hnone
      exact absurd hnone (by simp)
    next token back hsome =>
      rw [hsecond, Option.some.injEq, Prod.mk.injEq] at hsome
      obtain ⟨rfl, rfl⟩ := hsome
      rfl

/-- A template: the names of its tokens, each with the text in front of it, and the text behind
    the last one. -/
def tokenText (tokens : List (List Char × List Char)) (tail : List Char) : List Char :=
  tokens.flatMap (fun (before, name) => before ++ '{' :: (name ++ ['}'])) ++ tail

/-- A token more in front of a template. -/
theorem tokenText_cons (before name : List Char) (tokens : List (List Char × List Char))
    (tail : List Char) : tokenText ((before, name) :: tokens) tail =
      before ++ '{' :: (name ++ '}' :: tokenText tokens tail) := by
  simp [tokenText]

/-- More text behind a template stands behind its last token. -/
theorem tokenText_append (tokens : List (List Char × List Char)) (tail rest : List Char) :
    tokenText tokens tail ++ rest = tokenText tokens (tail ++ rest) :=
  List.append_assoc _ _ _

/-- Every text is a template, with no token left behind the last. -/
theorem exists_tokenText (cs : List Char) : ∃ tokens tail, cs = tokenText tokens tail ∧
    (∀ token ∈ tokens, '{' ∉ token.1 ∧ '}' ∉ token.2) ∧ Inert tail := by
  fun_induction renderChars [] cs with
  | case1 cs hopen =>
    exact ⟨[], cs, rfl, by simp, inert_of_notMem (splitAtChar_eq_none_iff.mp hopen)⟩
  | case2 cs before rest hopen hclose =>
    obtain ⟨rfl, hbefore⟩ := splitAtChar_eq_some hopen
    exact ⟨[], _, rfl, by simp,
      inert_of_notMem_behind hbefore (splitAtChar_eq_none_iff.mp hclose)⟩
  | case3 cs before rest hopen name after hclose ih =>
    obtain ⟨rfl, hbefore⟩ := splitAtChar_eq_some hopen
    obtain ⟨rfl, hname⟩ := splitAtChar_eq_some hclose
    obtain ⟨tokens, tail, rfl, htokens, htail⟩ := ih
    exact ⟨(before, name) :: tokens, tail, (tokenText_cons ..).symm,
      List.forall_mem_cons.mpr ⟨⟨hbefore, hname⟩, htokens⟩, htail⟩

/-- **Rendering replaces the tokens**, in order, and renders what follows them. -/
theorem renderChars_tokens {tokens : List (List Char × List Char)}
    (htokens : ∀ token ∈ tokens, '{' ∉ token.1 ∧ '}' ∉ token.2) (tail : List Char) :
    renderChars values (tokenText tokens tail) =
      tokens.flatMap (fun (before, name) => before ++ replacement values name) ++
        renderChars values tail := by
  induction tokens with
  | nil => rfl
  | cons token tokens ih =>
    obtain ⟨before, name⟩ := token
    obtain ⟨⟨hopen, hclose⟩, hrest⟩ := List.forall_mem_cons.mp htokens
    rw [tokenText_cons, renderChars_token hopen hclose, ih hrest, List.flatMap_cons]
    simp only [List.append_assoc]

/-- What follows the tokens is copied if it has no token. -/
theorem renderChars_tokenText {tokens : List (List Char × List Char)} {tail : List Char}
    (htokens : ∀ token ∈ tokens, '{' ∉ token.1 ∧ '}' ∉ token.2) (htail : Inert tail) :
    renderChars values (tokenText tokens tail) =
      tokens.flatMap (fun (before, name) => before ++ replacement values name) ++ tail := by
  rw [renderChars_tokens htokens, renderChars_of_inert htail]

end FitScript.Template
