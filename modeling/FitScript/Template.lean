import FitScript.Failure
import FitScript.Keyed

/-!
# Templates

The boilerplate that scripts are assembled from: texts with tokens such as `{name}`, grouped by
category and told apart by a key.

* `TemplateTable`: the texts. `TemplateTable.fragment`: one of them, or what is missing.
* `Template.render`: a text with its tokens replaced in one pass.
-/

namespace FitScript

/-- One piece of boilerplate. -/
structure Fragment where
  key : String
  text : String
deriving DecidableEq

/-- Fragments grouped by category. -/
structure TemplateTable where
  /-- The categories with their fragments; no category comes twice. -/
  categories : Keyed String (List Fragment)
deriving DecidableEq

namespace TemplateTable

/-- The table of some categories. Of several with one name the last counts. -/
def ofList (categories : Keyed String (List Fragment)) : TemplateTable :=
  ⟨categories.foldl (fun (table : Keyed String (List Fragment)) (name, fragments) =>
    table.put name fragments) []⟩

/-- The fragments of a category, in the order of the table. -/
def category (table : TemplateTable) (name : String) : Except LookupError (List Fragment) :=
  match table.categories.lookup name with
  | some fragments => .ok fragments
  | none => .error (.unknownCategory name)

/-- The text of a fragment. -/
def fragment (table : TemplateTable) (category key : String) : Except LookupError String := do
  match (← table.category category).find? (·.key == key) with
  | some fragment => pure fragment.text
  | none => throw (.unknownFragment category key)

/-- The names of the categories, sorted (`TemplateTable.categories`). -/
def names (table : TemplateTable) : List String :=
  (table.categories.map (·.1)).mergeSort (· ≤ ·)

/-- Whether a table has a category. -/
def contains (table : TemplateTable) (category : String) : Bool :=
  (table.categories.lookup category).isSome

end TemplateTable

namespace Template

/-- Values for tokens. -/
abbrev Values := Keyed String String

/-- Characters before a character, and those after it, if it occurs. -/
def splitAtChar (separator : Char) : List Char → Option (List Char × List Char)
  | [] => none
  | c :: rest =>
    if c = separator then some ([], rest)
    else (splitAtChar separator rest).map fun (before, after) => (c :: before, after)

/-- The separator is the first one: none stands before it. -/
theorem splitAtChar_eq_some {separator : Char} {cs before after : List Char}
    (h : splitAtChar separator cs = some (before, after)) :
    cs = before ++ separator :: after ∧ separator ∉ before := by
  induction cs generalizing before with
  | nil => simp [splitAtChar] at h
  | cons c rest ih =>
    by_cases hc : c = separator
    · simp only [splitAtChar, hc, if_true, Option.some.injEq, Prod.mk.injEq] at h
      simp [hc, ← h.1, ← h.2]
    · simp only [splitAtChar, hc, if_false, Option.map_eq_some_iff] at h
      obtain ⟨⟨front, back⟩, hsplit, heq⟩ := h
      simp only [Prod.mk.injEq] at heq
      obtain ⟨rfl, rfl⟩ := heq
      have hrest := ih hsplit
      simp [← hrest.1, hrest.2, Ne.symm hc]

/-- Nothing is split where the separator does not occur. -/
theorem splitAtChar_eq_none_iff {separator : Char} {cs : List Char} :
    splitAtChar separator cs = none ↔ separator ∉ cs := by
  induction cs with
  | nil => simp [splitAtChar]
  | cons c rest ih =>
    by_cases hc : c = separator
    · simp [splitAtChar, hc]
    · simp [splitAtChar, hc, ih, Ne.symm hc]

/-- What follows a separator is shorter than the whole. -/
theorem length_lt_of_splitAtChar {separator : Char} {cs before after : List Char}
    (h : splitAtChar separator cs = some (before, after)) : after.length < cs.length := by
  rw [(splitAtChar_eq_some h).1]
  simp only [List.length_append, List.length_cons]
  omega

/-- What stands for a token: its value, or the token itself. -/
def replacement (values : Values) (name : List Char) : List Char :=
  match values.lookup (String.ofList name) with
  | some value => value.toList
  | none => '{' :: (name ++ ['}'])

/-- A template with its tokens replaced. A token starts at an opening brace and ends at the next
    closing one; after a brace that is not closed nothing is replaced. Values are not searched
    for tokens. -/
def renderChars (values : Values) (template : List Char) : List Char :=
  match _opening : splitAtChar '{' template with
  | none => template
  | some (before, rest) =>
    match _closing : splitAtChar '}' rest with
    | none => template
    | some (name, after) =>
      before ++ replacement values name ++ renderChars values after
termination_by template.length
decreasing_by
  have hrest := length_lt_of_splitAtChar _opening
  have hafter := length_lt_of_splitAtChar _closing
  omega

/-- A template with its tokens replaced. -/
def render (template : String) (values : Values) : String :=
  String.ofList (renderChars values template.toList)

end Template

end FitScript
