import FitScript.Proofs.Template.Rendering

/-!
# Braces in front of tokens

Templates are R code, in which braces also stand for blocks. An opening brace that is not closed
in front of a token takes the token into its own name.

* `LeavesOpen`: a text with an opening brace that no closing one follows.
* `leavesOpen_tokenText_iff`: such a brace stands behind the last token of the text.
* `renderChars_append_token_of_closed`, `renderChars_append_token_of_open`: what becomes of a token,
  whatever stands around it.
* `render_append_token`: a token is filled in behind a text that leaves no brace open, and is
  copied behind one that does.
* `render_block`: so the first token in a block of code is not filled in.
-/

namespace FitScript.Template

/-! ## Texts that leave a brace open -/

/-- An opening brace stands in a text, and no closing one follows it. -/
def LeavesOpen (cs : List Char) : Prop :=
  ∃ before name, cs = before ++ '{' :: name ∧ '}' ∉ name

/-- A closing brace closes whatever was open in front of it. -/
theorem leavesOpen_append_close_iff {front cs : List Char} :
    LeavesOpen (front ++ '}' :: cs) ↔ LeavesOpen cs := by
  constructor
  · rintro ⟨before, name, heq, hname⟩
    rcases Text.append_cons_cases heq with ⟨-, hbrace, -⟩ | ⟨rest, -, hcs⟩ | ⟨rest, -, hrest⟩
    · exact absurd hbrace (by decide)
    · exact ⟨rest, name, hcs, hname⟩
    · rw [hrest] at hname
      exact absurd (List.mem_append_right _ List.mem_cons_self) hname
  · rintro ⟨before, name, rfl, hname⟩
    exact ⟨front ++ '}' :: before, name, by simp, hname⟩

/-- In a text without a token every opening brace is left open. -/
theorem leavesOpen_iff_of_inert {cs : List Char} (h : Inert cs) : LeavesOpen cs ↔ '{' ∈ cs := by
  constructor
  · rintro ⟨before, name, rfl, -⟩
    exact List.mem_append_right _ List.mem_cons_self
  · intro hmem
    obtain ⟨before, name, heq⟩ := List.append_of_mem hmem
    exact ⟨before, name, heq, h before name heq⟩

/-- A template leaves a brace open iff one stands behind its last token. -/
theorem leavesOpen_tokenText_iff (tokens : List (List Char × List Char)) {tail : List Char}
    (htail : Inert tail) : LeavesOpen (tokenText tokens tail) ↔ '{' ∈ tail := by
  induction tokens with
  | nil => exact leavesOpen_iff_of_inert htail
  | cons token tokens ih =>
    obtain ⟨before, name⟩ := token
    have hshape : tokenText ((before, name) :: tokens) tail =
        (before ++ '{' :: name) ++ '}' :: tokenText tokens tail := by
      simp [tokenText_cons]
    rw [hshape, leavesOpen_append_close_iff, ih]

/-! ## Tokens behind them -/

variable {values : Values}

/-- No value has a name with a brace in it. -/
def PlainNames (values : Values) : Prop :=
  ∀ entry ∈ values, '{' ∉ entry.1.toList ∧ '}' ∉ entry.1.toList

/-- A token with a brace in its name has no value and is copied. -/
theorem PlainNames.replacement_of_mem (h : PlainNames values) {name : List Char}
    (hname : '{' ∈ name) : replacement values name = '{' :: (name ++ ['}']) := by
  have hlookup : values.lookup (String.ofList name) = none := by
    rw [List.lookup_eq_none_iff]
    intro entry hentry
    rw [bne_iff_ne]
    intro hsame
    have hplain := (h entry hentry).1
    rw [← hsame, String.toList_ofList] at hplain
    exact hplain hname
  rw [replacement, hlookup]

/-- The name of a value has no brace in it. -/
theorem PlainNames.notMem_of_lookup (h : PlainNames values) {name value : String}
    (hvalue : values.lookup name = some value) : '}' ∉ name.toList := by
  obtain ⟨before, after, heq, -⟩ := List.lookup_eq_some_iff.mp hvalue
  refine (h (name, value) ?_).2
  rw [heq]
  exact List.mem_append_right _ List.mem_cons_self

/-- Behind a text that leaves no brace open, a token is replaced. -/
theorem renderChars_append_token_of_closed {cs name : List Char} (hcs : ¬ LeavesOpen cs)
    (hname : '}' ∉ name) (after : List Char) :
    renderChars values (cs ++ '{' :: (name ++ '}' :: after)) =
      renderChars values cs ++ replacement values name ++ renderChars values after := by
  obtain ⟨tokens, tail, rfl, htokens, htail⟩ := exists_tokenText cs
  have hopen : '{' ∉ tail := mt (leavesOpen_tokenText_iff tokens htail).mpr hcs
  rw [tokenText_append, renderChars_tokens htokens,
    renderChars_tokenText htokens htail, renderChars_token hopen hname]
  simp only [List.append_assoc]

/-- Behind a text that leaves a brace open, a token is copied. -/
theorem renderChars_append_token_of_open (hvalues : PlainNames values) {cs name : List Char}
    (hcs : LeavesOpen cs) (hname : '}' ∉ name) (after : List Char) :
    renderChars values (cs ++ '{' :: (name ++ '}' :: after)) =
      renderChars values cs ++ '{' :: (name ++ ['}']) ++ renderChars values after := by
  obtain ⟨tokens, tail, rfl, htokens, htail⟩ := exists_tokenText cs
  obtain ⟨before, begun, rfl, hbefore⟩ :=
    List.eq_append_cons_of_mem ((leavesOpen_tokenText_iff tokens htail).mp hcs)
  have hbegun : '}' ∉ begun := htail before begun rfl
  -- the open brace begins a token whose name reaches up to the closing brace of the other one
  have hshape : before ++ '{' :: begun ++ '{' :: (name ++ '}' :: after) =
      before ++ '{' :: ((begun ++ '{' :: name) ++ '}' :: after) := by
    simp
  have hclose : '}' ∉ begun ++ '{' :: name := by
    simp [hbegun, hname]
  rw [tokenText_append, renderChars_tokens htokens,
    renderChars_tokenText htokens htail, hshape, renderChars_token hbefore hclose,
    hvalues.replacement_of_mem (by simp)]
  simp

/-- **A token is filled in unless a brace is left open in front of it.** Then the template is
    rendered in three parts, of which the token becomes its value. Behind a text that leaves a brace
    open the parts are rendered as well, but the token is copied. -/
theorem render_append_token (hvalues : PlainNames values) {name value : String}
    (hvalue : values.lookup name = some value) (before after : String) :
    (¬ LeavesOpen before.toList → render (before ++ token name ++ after) values =
      render before values ++ value ++ render after values) ∧
    (LeavesOpen before.toList → render (before ++ token name ++ after) values =
      render before values ++ token name ++ render after values) := by
  have hname := hvalues.notMem_of_lookup hvalue
  constructor
  · intro hclosed
    apply String.toList_inj.mp
    rw [toList_render, toList_append_token, renderChars_append_token_of_closed hclosed hname,
      replacement_of_lookup hvalue]
    simp only [String.toList_append, toList_render]
  · intro hopen
    apply String.toList_inj.mp
    rw [toList_render, toList_append_token, renderChars_append_token_of_open hvalues hopen hname]
    simp only [String.toList_append, toList_render, toList_token]

/-- Behind a block of code that is closed, and inside of one. -/
theorem render_append_token_blocks :
    let values : Values := [("data", "df"), ("path", "'a.csv'")]
    let closed := "f <- function() \x7b 1 \x7d; "
    let opened := "\x7b "
    let after := " <- read.csv(\x7bpath\x7d) \x7d"
    PlainNames values ∧ values.lookup "data" = some "df" ∧ ¬ LeavesOpen closed.toList ∧
      LeavesOpen opened.toList ∧
      render (closed ++ token "data" ++ after) values =
        render closed values ++ "df" ++ render after values ∧
      render (opened ++ token "data" ++ after) values =
        render opened values ++ token "data" ++ render after values := by
  intro values closed opened after
  have hvalues : PlainNames values := by
    unfold PlainNames
    decide
  have hvalue : values.lookup "data" = some "df" := rfl
  have hclosed : ¬ LeavesOpen closed.toList := by
    have hshape : closed.toList = "f <- function() \x7b 1 ".toList ++ '}' :: "; ".toList := by
      decide
    rw [hshape, leavesOpen_append_close_iff, leavesOpen_iff_of_inert (inert_of_notMem (by decide))]
    decide
  have hopen : LeavesOpen opened.toList := ⟨[], [' '], by decide, by decide⟩
  have hfilled := render_append_token hvalues hvalue
  exact ⟨hvalues, hvalue, hclosed, hopen, (hfilled closed after).1 hclosed,
    (hfilled opened after).2 hopen⟩

/-- The first token in a block of code is not filled in: the brace of the block takes it. -/
theorem render_block :
    let values : Values := [("data", "df"), ("path", "'a.csv'")]
    let after := " <- read.csv(\x7bpath\x7d) \x7d"
    PlainNames values ∧ values.lookup "data" = some "df" ∧
      render ("\x7b " ++ token "data" ++ after) values =
        "\x7b \x7bdata\x7d <- read.csv('a.csv') \x7d" ∧
      render ("\x7b " ++ token "data" ++ after) values ≠
        render "\x7b " values ++ "df" ++ render after values := by
  intro values after
  have hvalues : PlainNames values := by
    unfold PlainNames
    decide
  exact ⟨hvalues, rfl, by decide +kernel, by decide +kernel⟩

end FitScript.Template
