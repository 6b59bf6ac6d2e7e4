import FitScript.Proofs.Template.Rendering
import Mathlib.Data.List.Basic

/-!
# Rendering is substitution

A template is cut at its tokens in one way only. Rendering goes through it once: each token makes
room for what its name stands for, and that is not looked at again, whatever braces are in it.

* `Cut`: the tokens of a template, the texts in front of them, and the rest. `Cut.text` is the
  template itself, `Cut.fill` has other texts in the places of the tokens.
* `Cut.text_injective`, `exists_text_eq`: every template is cut in exactly one way.
* `filling`: the first value of a name, or else its token. `render_text`: rendering fills it in.
* `exists_partsAround`: a value stands in the places of its tokens, between texts that do not
  depend on it.
* `render_substitutes`: all of this together, for every template.
-/

namespace FitScript.Template

/-! ## Cuts -/

/-- A template by its tokens: their names, each with the text in front of it, and the rest behind
    the last one, in which there is no token. -/
@[ext]
structure Cut where
  tokens : List (List Char × List Char)
  rest : List Char
  /-- A token begins at the first opening brace and ends at the first closing one behind that. -/
  tokens_plain : ∀ token ∈ tokens, '{' ∉ token.1 ∧ '}' ∉ token.2
  rest_inert : Inert rest

namespace Cut

/-- The names of the tokens, in order. -/
def names (cut : Cut) : List String :=
  cut.tokens.map fun token => String.ofList token.2

/-- The template with a text for each name in the places of its tokens. -/
def fill (cut : Cut) (image : String → String) : String :=
  String.ofList (cut.tokens.flatMap
    (fun (before, name) => before ++ (image (String.ofList name)).toList) ++ cut.rest)

/-- The template, with its tokens as they are. -/
def text (cut : Cut) : String :=
  cut.fill token

theorem toList_text (cut : Cut) : cut.text.toList = tokenText cut.tokens cut.rest := by
  simp [text, fill, tokenText, toList_token]

/-- A token more in front of a template. -/
theorem text_cons {before name rest : List Char} {tokens : List (List Char × List Char)}
    (htokens : ∀ token ∈ (before, name) :: tokens, '{' ∉ token.1 ∧ '}' ∉ token.2)
    (hrest : Inert rest) : text ⟨(before, name) :: tokens, rest, htokens, hrest⟩ =
      String.ofList before ++ token (String.ofList name) ++
        text ⟨tokens, rest, (List.forall_mem_cons.mp htokens).2, hrest⟩ := by
  apply String.toList_inj.mp
  rw [toList_append_token, toList_text, toList_text, tokenText_cons, String.toList_ofList,
    String.toList_ofList]

/-- What is filled in for names that no token has does not matter. -/
theorem fill_congr {cut : Cut} {image other : String → String}
    (h : ∀ name ∈ cut.names, image name = other name) : cut.fill image = cut.fill other := by
  have htokens : ∀ token ∈ cut.tokens, token.1 ++ (image (String.ofList token.2)).toList =
      token.1 ++ (other (String.ofList token.2)).toList := by
    intro token htoken
    rw [h _ (List.mem_map_of_mem htoken)]
  unfold fill
  rw [List.flatMap_congr htokens]

end Cut

/-- A template with a token is not without one. -/
theorem not_inert_tokenText_cons {token : List Char × List Char}
    {tokens : List (List Char × List Char)} {tail : List Char} :
    ¬ Inert (tokenText (token :: tokens) tail) := by
  intro h
  have hclose := h token.1 _ (tokenText_cons ..)
  exact hclose (List.mem_append_right _ List.mem_cons_self)

/-- A text tells the tokens it is made of. -/
theorem tokenText_inj {tokens others : List (List Char × List Char)} {tail rest : List Char}
    (htokens : ∀ token ∈ tokens, '{' ∉ token.1 ∧ '}' ∉ token.2)
    (hothers : ∀ token ∈ others, '{' ∉ token.1 ∧ '}' ∉ token.2)
    (htail : Inert tail) (hrest : Inert rest)
    (h : tokenText tokens tail = tokenText others rest) : tokens = others ∧ tail = rest := by
  induction tokens generalizing others with
  | nil =>
    cases others with
    | nil => exact ⟨rfl, h⟩
    | cons other others =>
      have hinert : Inert (tokenText (other :: others) rest) := h ▸ htail
      exact absurd hinert not_inert_tokenText_cons
  | cons token tokens ih =>
    cases others with
    | nil =>
      have hinert : Inert (tokenText (token :: tokens) tail) := h ▸ hrest
      exact absurd hinert not_inert_tokenText_cons
    | cons other others =>
      obtain ⟨⟨hopen, hclose⟩, htokens⟩ := List.forall_mem_cons.mp htokens
      obtain ⟨⟨hopen', hclose'⟩, hothers⟩ := List.forall_mem_cons.mp hothers
      -- the first opening brace of the text, and the first closing one behind it, are the same
      rw [tokenText_cons, tokenText_cons] at h
      obtain ⟨hbefore, h⟩ := Text.append_cons_inj hopen hopen' h
      obtain ⟨hname, h⟩ := Text.append_cons_inj hclose hclose' h
      obtain ⟨rfl, rfl⟩ := ih htokens hothers h
      exact ⟨by rw [Prod.ext hbefore hname], rfl⟩

/-- No template is cut in two ways. -/
theorem Cut.text_injective : Function.Injective Cut.text := by
  intro cut other h
  have hlists := congrArg String.toList h
  rw [toList_text, toList_text] at hlists
  obtain ⟨htokens, hrest⟩ := tokenText_inj cut.tokens_plain other.tokens_plain cut.rest_inert
    other.rest_inert hlists
  exact Cut.ext htokens hrest

/-- Every template is cut. -/
theorem exists_text_eq (template : String) : ∃ cut : Cut, cut.text = template := by
  obtain ⟨tokens, rest, htext, htokens, hrest⟩ := exists_tokenText template.toList
  refine ⟨⟨tokens, rest, htokens, hrest⟩, String.toList_inj.mp ?_⟩
  rw [Cut.toList_text, htext]

/-! ## What is filled in -/

/-- What is filled in for a name: its first value, or else the token as it is. -/
def filling (values : Values) (name : String) : String :=
  (values.lookup name).getD (token name)

theorem toList_filling (values : Values) (name : List Char) :
    (filling values (String.ofList name)).toList = replacement values name := by
  rw [filling, replacement]
  cases values.lookup (String.ofList name) with
  | none => rw [Option.getD_none, toList_token, String.toList_ofList]
  | some value => rfl

/-- **Rendering fills in the values** and leaves everything else as it is. -/
theorem render_text (cut : Cut) (values : Values) :
    render cut.text values = cut.fill (filling values) := by
  apply String.toList_inj.mp
  rw [toList_render, Cut.toList_text, renderChars_tokenText cut.tokens_plain cut.rest_inert,
    Cut.fill, String.toList_ofList]
  simp only [toList_filling]

/-- The first token is filled in, and rendering goes on behind it. -/
theorem render_token {before name : String} (hopen : '{' ∉ before.toList)
    (hclose : '}' ∉ name.toList) (after : String) (values : Values) :
    render (before ++ token name ++ after) values =
      before ++ filling values name ++ render after values := by
  apply String.toList_inj.mp
  rw [toList_render, toList_append_token, renderChars_token hopen hclose, ← toList_filling,
    String.ofList_toList, ← toList_render, String.toList_append, String.toList_append]

section

variable {values front back : Values} {name : String}

/-- Without a value the token stays as it is. -/
theorem filling_of_notMem (h : name ∉ values.map Prod.fst) : filling values name = token name := by
  have hlookup : values.lookup name = none := by
    refine List.lookup_eq_none_iff.mpr fun entry hentry => bne_iff_ne.mpr ?_
    rintro rfl
    exact h (List.mem_map_of_mem hentry)
  rw [filling, hlookup, Option.getD_none]

/-- The first value of a name is filled in. -/
theorem filling_of_first (h : name ∉ front.map Prod.fst) (value : String) :
    filling (front ++ (name, value) :: back) name = value := by
  have hlookup : (front ++ (name, value) :: back).lookup name = some value := by
    refine List.lookup_eq_some_iff.mpr ⟨front, back, rfl, fun entry hentry => bne_iff_ne.mpr ?_⟩
    rintro rfl
    exact h (List.mem_map_of_mem hentry)
  rw [filling, hlookup, Option.getD_some]

/-- A value is not filled in for other names. -/
theorem filling_of_ne {sought : String} (h : sought ≠ name) (value : String) :
    filling (front ++ (name, value) :: back) sought = filling (front ++ back) sought := by
  rw [filling, filling, List.lookup_append, List.lookup_append, List.lookup_cons,
    beq_false_of_ne h]

/-- A value behind another one of its name is not filled in. -/
theorem filling_of_mem (h : name ∈ front.map Prod.fst) (value : String) :
    filling (front ++ (name, value) :: back) = filling (front ++ back) := by
  funext sought
  by_cases hsought : sought = name
  · obtain ⟨entry, hentry, hname⟩ := List.mem_map.mp h
    rw [filling, filling, List.lookup_append, List.lookup_append]
    cases hfound : front.lookup sought with
    | some found => rw [Option.some_or, Option.some_or]
    | none =>
      have hne := bne_iff_ne.mp (List.lookup_eq_none_iff.mp hfound entry hentry)
      exact absurd (hsought.trans hname.symm) hne
  · exact filling_of_ne hsought value

end

/-! ## Parts around the tokens of a name -/

/-- The parts of a template around the tokens of a name. In the rendered template the value of the
    name stands between them, and they are rendered without it. -/
structure PartsAround (name template : String) (parts : List String) : Prop where
  text_eq : template = (token name).intercalate parts
  render_eq : ∀ front back : Values, name ∉ front.map Prod.fst → ∀ value,
    render template (front ++ (name, value) :: back) =
      value.intercalate (parts.map fun part => render part (front ++ back))

namespace PartsAround

variable {name template part : String} {parts : List String}

/-- A text without a token is one part. -/
theorem of_inert (h : Inert template.toList) : PartsAround name template [template] where
  text_eq := String.intercalate_singleton.symm
  render_eq front back _ value := by
    rw [List.map_singleton, String.intercalate_singleton, render_of_inert h, render_of_inert h]

/-- What stands in front of a token of the name is a part by itself. -/
theorem token_append {before : String} (hopen : '{' ∉ before.toList) (hclose : '}' ∉ name.toList)
    (h : PartsAround name template (part :: parts)) :
    PartsAround name (before ++ token name ++ template) (before :: part :: parts) where
  text_eq := by
    rw [String.intercalate_cons_cons, ← h.text_eq]
  render_eq front back hname value := by
    rw [render_token hopen hclose, filling_of_first hname, h.render_eq front back hname]
    simp only [List.map_cons, String.intercalate_cons_cons, render_of_inert (inert_of_notMem hopen)]

/-- Another token belongs to the part behind it. -/
theorem other_append {before other : String} (hopen : '{' ∉ before.toList)
    (hclose : '}' ∉ other.toList) (hother : other ≠ name)
    (h : PartsAround name template (part :: parts)) :
    PartsAround name (before ++ token other ++ template)
      ((before ++ token other ++ part) :: parts) where
  text_eq := by
    rw [String.intercalate_cons_append, ← h.text_eq]
  render_eq front back hname value := by
    rw [render_token hopen hclose, filling_of_ne hother, h.render_eq front back hname,
      List.map_cons, List.map_cons, render_token hopen hclose, String.intercalate_cons_append]

end PartsAround

/-- There is a part in front of the tokens of a name, and one behind each. -/
theorem exists_partsAround (cut : Cut) (name : String) :
    ∃ part parts, parts.length = cut.names.count name ∧
      PartsAround name cut.text (part :: parts) := by
  obtain ⟨tokens, rest, htokens, hrest⟩ := cut
  induction tokens with
  | nil =>
    have hinert : Inert (Cut.text ⟨[], rest, htokens, hrest⟩).toList := by
      rw [Cut.toList_text]
      exact hrest
    exact ⟨_, [], rfl, .of_inert hinert⟩
  | cons token tokens ih =>
    obtain ⟨before, other⟩ := token
    have hopen : '{' ∉ (String.ofList before).toList := by
      rw [String.toList_ofList]
      exact (htokens _ List.mem_cons_self).1
    have hclose : '}' ∉ (String.ofList other).toList := by
      rw [String.toList_ofList]
      exact (htokens _ List.mem_cons_self).2
    obtain ⟨part, parts, hlength, hparts⟩ := ih (List.forall_mem_cons.mp htokens).2
    rw [Cut.text_cons]
    -- a token of the name ends a part, any other one is taken into the next
    by_cases hother : String.ofList other = name
    · subst hother
      refine ⟨_, part :: parts, ?_, hparts.token_append hopen hclose⟩
      rw [List.length_cons, hlength]
      exact List.count_cons_self.symm
    · refine ⟨_, parts, ?_, hparts.other_append hopen hclose hother⟩
      rw [hlength]
      exact (List.count_cons_of_ne hother).symm

/-! ## Templates -/

/-- **Rendering is substitution in a single pass.** A template is cut in exactly one way, and
    rendering fills in the first value of each name, or its token, whatever braces are in the
    values. So a template is rendered to itself if none of its names has a value. A value behind
    another one of its name has no effect, and any other value stands in the places of its tokens,
    between texts that do not depend on it. -/
theorem render_substitutes (template : String) :
    ∃ cut : Cut, (∀ other : Cut, other.text = template ↔ other = cut) ∧
      (∀ values, render template values = cut.fill (filling values)) ∧
      (∀ values : Values, (∀ name ∈ cut.names, name ∉ values.map Prod.fst) →
        render template values = template) ∧
      (∀ (front back : Values) (name value : String), name ∈ front.map Prod.fst →
        render template (front ++ (name, value) :: back) = render template (front ++ back)) ∧
      ∀ name, ∃ part parts, parts.length = cut.names.count name ∧
        PartsAround name template (part :: parts) := by
  obtain ⟨cut, rfl⟩ := exists_text_eq template
  refine ⟨cut, fun other => Cut.text_injective.eq_iff, render_text cut, ?_, ?_,
    exists_partsAround cut⟩
  · intro values hvalues
    rw [render_text]
    exact Cut.fill_congr fun name hname => filling_of_notMem (hvalues name hname)
  · intro front back name value hname
    rw [render_text, render_text, filling_of_mem hname]

/-- A token of a name with a brace in it, a name with two values, the first of which looks like a
    token, and a brace that is not closed. -/
theorem render_substitutes_braces :
    let template := "é \x7ba\x7d\x7b\x7bb\x7d\x7ba\x7d \x7bc"
    let values : Values := [("b", "1"), ("a", "\x7bb\x7d"), ("a", "2")]
    render template values = "é \x7bb\x7d\x7b\x7bb\x7d\x7bb\x7d \x7bc" ∧
      render template [("b", "1")] = template ∧
      render template values = render template [("b", "1"), ("a", "\x7bb\x7d")] ∧
      ∃ first second third, template = (token "a").intercalate [first, second, third] ∧
        ∀ value, render template [("b", "1"), ("a", value), ("a", "2")] =
          value.intercalate ([first, second, third].map fun part =>
            render part [("b", "1"), ("a", "2")]) := by
  intro template values
  obtain ⟨cut, hcut, hrender, hsame, hbehind, hparts⟩ := render_substitutes template
  -- whatever cut there is, it is this one
  have htokens : (⟨[(['é', ' '], ['a']), ([], ['{', 'b']), ([], ['a'])], [' '] ++ '{' :: ['c'],
      by decide, inert_of_notMem_behind (by decide) (by decide)⟩ : Cut) = cut :=
    (hcut _).mp (by decide)
  subst htokens
  obtain ⟨part, parts, hlength, haround⟩ := hparts "a"
  obtain ⟨second, third, rfl⟩ : ∃ second third, parts = [second, third] :=
    List.length_eq_two.mp hlength
  refine ⟨?_, ?_, ?_, part, second, third, haround.text_eq, fun value => ?_⟩
  · rw [hrender]
    decide
  · exact hsame _ (by decide)
  · exact hbehind [("b", "1"), ("a", "\x7bb\x7d")] [] "a" "2" (by decide)
  · exact haround.render_eq [("b", "1")] [("a", "2")] (by decide) value

end FitScript.Template
