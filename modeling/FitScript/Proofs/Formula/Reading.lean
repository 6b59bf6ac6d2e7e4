import FitScript.Proofs.Model.WellNamed

/-!
# Reading formulas

A reader of formulas that knows nothing about models: it takes a formula apart at its tilde, at
the plus signs outside parentheses, and a term in parentheses at its bar and plus signs.

* `Formula.sides?`, `Formula.terms`, `Formula.randomEffect?`: the reader.
* `terms_intercalate`: terms joined by a padded plus sign are read back.
* `randomEffect?_term`: the term of a random effect is read back.
* `formula_reads_back`: the formula of a validated model is read back as its parts.
-/

namespace FitScript.Formula

/-! ## The reader -/

/-- How many parentheses are open after a character. -/
def depthAfter (depth : Nat) (c : Char) : Nat :=
  if c = '(' then depth + 1 else if c = ')' then depth - 1 else depth

/-- Pieces with some characters in front of the first one. -/
def extendFirst (front : List Char) : List (List Char) → List (List Char)
  | [] => [front]
  | piece :: pieces => (front ++ piece) :: pieces

/-- The pieces between the occurrences of a separator outside parentheses, where `depth` of them
    are open at the start. -/
def pieces (separator : Char) (depth : Nat) : List Char → List (List Char)
  | [] => [[]]
  | c :: rest =>
    if c = separator ∧ depth = 0 then [] :: pieces separator 0 rest
    else extendFirst [c] (pieces separator (depthAfter depth c) rest)

/-- What stands before the first tilde, trimmed, and what follows it. -/
def sides? (formula : String) : Option (String × String) :=
  (Template.splitAtChar '~' formula.toList).map fun (left, right) =>
    (Text.trim (String.ofList left), String.ofList right)

/-- The terms of a right-hand side, trimmed. -/
def terms (right : String) : List String :=
  (pieces '+' 0 right.toList).map fun piece => Text.trim (String.ofList piece)

/-- Whether a term is one of a random effect. -/
def isRandom (term : String) : Bool :=
  term.toList.head? == some '('

/-- The characters between an opening and a closing parenthesis. -/
def inner? : List Char → Option (List Char)
  | '(' :: rest => if rest.getLast? = some ')' then some rest.dropLast else none
  | _ => none

/-- The random effect of a term in parentheses: what follows the bar is the group, and what stands
    before it is an intercept and slopes. -/
def randomEffect? (term : String) : Option RandomEffect :=
  match (inner? term.toList).map (pieces '|' 0) with
  | some [left, group] =>
    match pieces '+' 0 left with
    | ['1'] :: slopes => some ⟨String.ofList group, slopes.map String.ofList⟩
    | _ => none
  | _ => none

/-! ## Pieces -/

variable {separator : Char}

theorem pieces_ne_nil (depth : Nat) (cs : List Char) : pieces separator depth cs ≠ [] := by
  cases cs with
  | nil => simp [pieces]
  | cons c rest =>
    rw [pieces]
    split_ifs
    · simp
    · cases pieces separator (depthAfter depth c) rest <;> simp [extendFirst]

theorem extendFirst_nil {ps : List (List Char)} (h : ps ≠ []) : extendFirst [] ps = ps := by
  cases ps with
  | nil => exact absurd rfl h
  | cons p ps => rfl

theorem extendFirst_append (a b : List Char) (ps : List (List Char)) :
    extendFirst (a ++ b) ps = extendFirst a (extendFirst b ps) := by
  cases ps with
  | nil => rfl
  | cons p ps => simp [extendFirst]

/-- A text that is not cut, whatever follows it. -/
def Whole (separator : Char) (front : List Char) : Prop :=
  ∀ rest, pieces separator 0 (front ++ rest) = extendFirst front (pieces separator 0 rest)

theorem Whole.append {a b : List Char} (ha : Whole separator a) (hb : Whole separator b) :
    Whole separator (a ++ b) := by
  intro rest
  rw [List.append_assoc, ha, hb, extendFirst_append]

theorem Whole.pieces_eq {front : List Char} (h : Whole separator front) :
    pieces separator 0 front = [front] := by
  have := h []
  rw [List.append_nil] at this
  rw [this]
  simp [pieces, extendFirst]

theorem Whole.pieces_append_cons {front : List Char} (h : Whole separator front)
    (rest : List Char) :
    pieces separator 0 (front ++ separator :: rest) = front :: pieces separator 0 rest := by
  rw [h, pieces, if_pos ⟨rfl, rfl⟩]
  simp [extendFirst]

/-- Characters that are no parentheses are scanned at one depth. They are cut at no depth if they
    are no separators, and below parentheses in any case. -/
theorem pieces_append_of_flat {front : List Char} {depth : Nat}
    (hflat : ∀ c ∈ front, c ≠ '(' ∧ c ≠ ')')
    (hcut : ∀ c ∈ front, ¬ (c = separator ∧ depth = 0)) (rest : List Char) :
    pieces separator depth (front ++ rest) =
      extendFirst front (pieces separator depth rest) := by
  induction front with
  | nil => exact (extendFirst_nil (pieces_ne_nil _ _)).symm
  | cons c front ih =>
    rw [List.forall_mem_cons] at hflat hcut
    have hdepth : depthAfter depth c = depth := by
      rw [depthAfter, if_neg hflat.1.1, if_neg hflat.1.2]
    rw [List.cons_append, pieces, if_neg hcut.1, hdepth, ih hflat.2 hcut.2, ← extendFirst_append]
    rfl

theorem whole_of_flat {front : List Char} (hflat : ∀ c ∈ front, c ≠ '(' ∧ c ≠ ')')
    (hcut : separator ∉ front) : Whole separator front := by
  intro rest
  refine pieces_append_of_flat hflat ?_ rest
  rintro c hc ⟨rfl, -⟩
  exact hcut hc

/-- A text in parentheses is not cut. -/
theorem whole_parenthesized {inner : List Char} (hflat : ∀ c ∈ inner, c ≠ '(' ∧ c ≠ ')')
    (hopen : separator ≠ '(') : Whole separator ('(' :: (inner ++ [')'])) := by
  intro rest
  have hinner : pieces separator 1 (inner ++ ')' :: rest) =
      extendFirst inner (pieces separator 1 (')' :: rest)) :=
    pieces_append_of_flat hflat (by simp) _
  have hclose : pieces separator 1 (')' :: rest) = extendFirst [')'] (pieces separator 0 rest) := by
    rw [pieces, if_neg (by simp)]
    rfl
  have hshape : '(' :: (inner ++ [')']) ++ rest = '(' :: (inner ++ ')' :: rest) := by simp
  rw [hshape, pieces, if_neg (by simp [Ne.symm hopen])]
  show extendFirst ['('] (pieces separator 1 (inner ++ ')' :: rest)) = _
  rw [hinner, hclose, ← extendFirst_append, ← extendFirst_append]
  simp

/-- Parts that are not cut are the pieces of the text that joins them. -/
theorem pieces_intercalate {parts : List (List Char)} (hne : parts ≠ [])
    (hwhole : ∀ part ∈ parts, Whole separator part) :
    pieces separator 0 ([separator].intercalate parts) = parts := by
  induction parts with
  | nil => exact absurd rfl hne
  | cons part rest ih =>
    rw [List.forall_mem_cons] at hwhole
    cases rest with
    | nil => rw [List.intercalate_singleton, hwhole.1.pieces_eq]
    | cons next rest =>
      rw [List.intercalate_cons_cons, List.append_assoc, List.singleton_append,
        hwhole.1.pieces_append_cons, ih (by simp) hwhole.2]

/-! ## Terms -/

/-- A term that is not cut and holds no blank. -/
structure IsTerm (term : List Char) : Prop where
  ne_nil : term ≠ []
  whole : Whole '+' term
  not_blank : ∀ c ∈ term, Text.isBlank c = false

theorem whole_blanks {blanks : List Char} (h : ∀ c ∈ blanks, Text.isBlank c) :
    Whole '+' blanks := by
  apply whole_of_flat
  · intro c hc
    have := h c hc
    constructor <;> (rintro rfl; exact absurd this (by decide))
  · intro hc
    exact absurd (h _ hc) (by decide)

/-- Terms joined by a plus sign between blanks are read back. -/
theorem terms_intercalate {front back : List Char} (hfront : ∀ c ∈ front, Text.isBlank c)
    (hback : ∀ c ∈ back, Text.isBlank c) {parts : List String} (hne : parts ≠ [])
    (hterm : ∀ part ∈ parts, IsTerm part.toList) {blanks : List Char}
    (hblanks : ∀ c ∈ blanks, Text.isBlank c) :
    terms (String.ofList (blanks ++
      (front ++ '+' :: back).intercalate (parts.map String.toList))) = parts := by
  unfold terms
  rw [String.toList_ofList]
  induction parts generalizing blanks with
  | nil => exact absurd rfl hne
  | cons part rest ih =>
    rw [List.forall_mem_cons] at hterm
    obtain ⟨hpart, hrest⟩ := hterm
    cases rest with
    | nil =>
      have htrim : Text.trim (String.ofList (blanks ++ (part.toList ++ []))) =
          String.ofList part.toList :=
        Text.trim_padded hblanks (by simp) hpart.ne_nil hpart.not_blank
      rw [List.append_nil, String.ofList_toList] at htrim
      rw [List.map_singleton, List.intercalate_singleton,
        ((whole_blanks hblanks).append hpart.whole).pieces_eq, List.map_singleton, htrim]
    | cons next rest =>
      have hwhole : Whole '+' (blanks ++ (part.toList ++ front)) :=
        (whole_blanks hblanks).append (hpart.whole.append (whole_blanks hfront))
      have htrim : Text.trim (String.ofList (blanks ++ (part.toList ++ front))) =
          String.ofList part.toList :=
        Text.trim_padded hblanks hfront hpart.ne_nil hpart.not_blank
      rw [String.ofList_toList] at htrim
      have hshape : blanks ++ (front ++ '+' :: back).intercalate
            ((part :: next :: rest).map String.toList) =
          blanks ++ (part.toList ++ front) ++ '+' ::
            (back ++ (front ++ '+' :: back).intercalate ((next :: rest).map String.toList)) := by
        simp
      rw [hshape, hwhole.pieces_append_cons, List.map_cons, htrim, ih (by simp) hrest hback]

/-- Name characters are no separators and no parentheses. -/
theorem ne_of_isNameChar {c d : Char} (h : Name.isNameChar c) (hd : Name.isNameChar d = false) :
    c ≠ d := by
  rintro rfl
  exact absurd h (by simp [hd])

theorem flat_of_isNameChar {cs : List Char} (h : ∀ c ∈ cs, Name.isNameChar c) :
    ∀ c ∈ cs, c ≠ '(' ∧ c ≠ ')' :=
  fun c hc => ⟨ne_of_isNameChar (h c hc) (by decide), ne_of_isNameChar (h c hc) (by decide)⟩

theorem whole_of_isNameChar {cs : List Char} (h : ∀ c ∈ cs, Name.isNameChar c)
    (hs : Name.isNameChar separator = false) : Whole separator cs :=
  whole_of_flat (flat_of_isNameChar h) fun hc => ne_of_isNameChar (h _ hc) hs rfl

theorem isTerm_of_isNameChar {cs : List Char} (hne : cs ≠ [])
    (h : ∀ c ∈ cs, Name.isNameChar c) : IsTerm cs :=
  ⟨hne, whole_of_isNameChar h (by decide), fun c hc => Name.isBlank_of_isNameChar (h c hc)⟩

theorem isRandom_of_isNameChar {term : String} (h : ∀ c ∈ term.toList, Name.isNameChar c) :
    isRandom term = false := by
  unfold isRandom
  cases hcs : term.toList with
  | nil => rfl
  | cons c rest =>
    have hc : c ≠ '(' := ne_of_isNameChar (h c (by simp [hcs])) (by decide)
    simpa using hc

/-! ## Random effects -/

/-- What stands in the parentheses of a random effect's term. -/
def innerText (effect : RandomEffect) : List Char :=
  ['+'].intercalate (['1'] :: effect.slopes.map String.toList) ++ '|' :: effect.group.toList

theorem toList_term (effect : RandomEffect) :
    (effect.term "+").toList = '(' :: (innerText effect ++ [')']) := by
  simp [RandomEffect.term, innerText]

theorem isRandom_term (effect : RandomEffect) : isRandom (effect.term "+") = true := by
  rw [isRandom, toList_term]
  rfl

section Effects

variable {effect : RandomEffect}

/-- The parts that the term of a random effect joins. -/
theorem isNameChar_of_mem_slopes (hslopes : ∀ name ∈ effect.slopes, Name.isSyntactic name) :
    ∀ part ∈ ['1'] :: effect.slopes.map String.toList, ∀ c ∈ part, Name.isNameChar c := by
  rw [List.forall_mem_cons]
  refine ⟨List.forall_mem_singleton.mpr (by decide), ?_⟩
  intro part hpart
  obtain ⟨name, hname, rfl⟩ := List.mem_map.mp hpart
  exact Name.isNameChar_of_isSyntactic (hslopes name hname)

/-- A character of a random effect's term is one of a name, a plus sign or the bar. -/
theorem mem_innerText (hgroup : Name.isSyntactic effect.group)
    (hslopes : ∀ name ∈ effect.slopes, Name.isSyntactic name) {c : Char}
    (hc : c ∈ innerText effect) : Name.isNameChar c ∨ c = '+' ∨ c = '|' := by
  rw [innerText, List.mem_append, List.mem_cons] at hc
  rcases hc with hc | rfl | hc
  · rcases Text.mem_intercalate hc with hc | ⟨part, hpart, hc⟩
    · exact Or.inr (Or.inl (List.mem_singleton.mp hc))
    · exact Or.inl (isNameChar_of_mem_slopes hslopes part hpart c hc)
  · exact Or.inr (Or.inr rfl)
  · exact Or.inl (Name.isNameChar_of_isSyntactic hgroup c hc)

theorem flat_innerText (hgroup : Name.isSyntactic effect.group)
    (hslopes : ∀ name ∈ effect.slopes, Name.isSyntactic name) :
    ∀ c ∈ innerText effect, c ≠ '(' ∧ c ≠ ')' := by
  intro c hc
  rcases mem_innerText hgroup hslopes hc with h | rfl | rfl
  · exact ⟨ne_of_isNameChar h (by decide), ne_of_isNameChar h (by decide)⟩
  · decide
  · decide

theorem isTerm_term (hgroup : Name.isSyntactic effect.group)
    (hslopes : ∀ name ∈ effect.slopes, Name.isSyntactic name) :
    IsTerm (effect.term "+").toList := by
  rw [toList_term]
  refine ⟨by simp, whole_parenthesized (flat_innerText hgroup hslopes) (by decide), ?_⟩
  intro c hc
  simp only [List.mem_cons, List.mem_append, List.not_mem_nil, or_false] at hc
  rcases hc with rfl | hc | rfl
  · decide
  · rcases mem_innerText hgroup hslopes hc with h | rfl | rfl
    · exact Name.isBlank_of_isNameChar h
    · decide
    · decide
  · decide

/-- **The term of a random effect is read back.** -/
theorem randomEffect?_term (hgroup : Name.isSyntactic effect.group)
    (hslopes : ∀ name ∈ effect.slopes, Name.isSyntactic name) :
    randomEffect? (effect.term "+") = some effect := by
  have hparts := isNameChar_of_mem_slopes hslopes
  have hinner : inner? (effect.term "+").toList = some (innerText effect) := by
    rw [toList_term, inner?, if_pos (by simp), List.dropLast_concat]
  have hleft : Whole '|' (['+'].intercalate (['1'] :: effect.slopes.map String.toList)) := by
    apply whole_of_flat
    · intro c hc
      exact flat_innerText hgroup hslopes c (List.mem_append_left _ hc)
    · intro hc
      rcases Text.mem_intercalate hc with hc | ⟨part, hpart, hc⟩
      · exact absurd hc (by decide)
      · exact absurd (hparts part hpart _ hc) (by decide)
  have hgroup' : Whole '|' effect.group.toList :=
    whole_of_isNameChar (Name.isNameChar_of_isSyntactic hgroup) (by decide)
  have hbar : pieces '|' 0 (innerText effect) =
      [['+'].intercalate (['1'] :: effect.slopes.map String.toList), effect.group.toList] := by
    rw [innerText, hleft.pieces_append_cons, hgroup'.pieces_eq]
  have hplus : pieces '+' 0 (['+'].intercalate (['1'] :: effect.slopes.map String.toList)) =
      ['1'] :: effect.slopes.map String.toList :=
    pieces_intercalate (by simp) fun part hpart => whole_of_isNameChar (hparts part hpart) (by decide)
  have hback : effect.slopes.map (String.ofList ∘ String.toList) = effect.slopes := by
    conv_rhs => rw [← List.map_id effect.slopes]
    exact List.map_congr_left fun name _ => String.ofList_toList
  simp only [randomEffect?, hinner, Option.map_some, hbar, hplus, String.ofList_toList,
    List.map_map, hback]

end Effects

/-! ## Formulas of models -/

section Models

variable {model : Model}

theorem terms_eq (hn : model.WellNamed) :
    model.terms = model.independents.map (·.name) ++ model.interactionNames ++
      model.randomEffects.map (·.term "+") := by
  rw [Model.terms, hn.separator]

theorem isNameChar_of_mem_variables (hn : model.WellNamed) {name : String}
    (h : name ∈ model.independents.map (·.name) ++ model.interactionNames) :
    name.toList ≠ [] ∧ ∀ c ∈ name.toList, Name.isNameChar c := by
  rw [List.mem_append] at h
  rcases h with h | h
  · obtain ⟨v, hv, rfl⟩ := List.mem_map.mp h
    have hsyn := hn.independents.2 v hv
    exact ⟨Name.toList_ne_nil_of_isSyntactic hsyn, Name.isNameChar_of_isSyntactic hsyn⟩
  · obtain ⟨i, hi, rfl⟩ := List.mem_map.mp h
    obtain ⟨htwo, hnames⟩ := hn.interactions i hi
    have hne : i.factors ≠ [] := by
      rintro hnil
      simp [hnil] at htwo
    exact ⟨Name.toList_intercalate_ne_nil hne hnames, Name.isNameChar_intercalate hn.joiner hnames⟩

theorem isTerm_of_mem_terms (hn : model.WellNamed) {term : String} (h : term ∈ model.terms) :
    IsTerm term.toList := by
  rw [terms_eq hn, List.mem_append] at h
  rcases h with h | h
  · obtain ⟨hne, hchars⟩ := isNameChar_of_mem_variables hn h
    exact isTerm_of_isNameChar hne hchars
  · obtain ⟨e, he, rfl⟩ := List.mem_map.mp h
    obtain ⟨hgroup, hslopes⟩ := hn.randomEffects e he
    exact isTerm_term hgroup hslopes

theorem terms_ne_nil (hn : model.WellNamed) : model.terms ≠ [] := by
  rw [terms_eq hn]
  simp [hn.independents.1]

/-- The separator of a well-named model is a plus sign between blanks. -/
theorem exists_separator (hn : model.WellNamed) : ∃ front back : List Char,
    (∀ c ∈ front, Text.isBlank c) ∧ (∀ c ∈ back, Text.isBlank c) ∧
      model.convention.termSeparator.toList = front ++ '+' :: back :=
  Text.exists_of_trim_eq hn.separator

theorem toList_formula (model : Model) :
    model.formula.toList =
      (model.dependent.name.toList ++ [' ']) ++ '~' :: ' ' :: model.rightHandSide.toList := by
  simp [Model.formula]

theorem notMem_leftSide (hn : model.WellNamed) :
    '~' ∉ model.dependent.name.toList ++ [' '] := by
  rw [List.mem_append, not_or]
  exact ⟨Name.notMem_of_isSyntactic hn.dependent (by decide), by decide⟩

/-- The right-hand side of a formula is read back as the terms of its model. -/
theorem terms_rightHandSide (hn : model.WellNamed) :
    terms (String.ofList (' ' :: model.rightHandSide.toList)) = model.terms := by
  obtain ⟨front, back, hfront, hback, hsep⟩ := exists_separator hn
  have hblank : ∀ c ∈ [' '], Text.isBlank c := List.forall_mem_singleton.mpr (by decide)
  have hread := terms_intercalate hfront hback (terms_ne_nil hn)
    (fun _ => isTerm_of_mem_terms hn) hblank
  rw [← hsep, ← String.toList_intercalate] at hread
  exact hread

/-- A formula is read back as its two sides. -/
theorem sides?_formula (hn : model.WellNamed) :
    sides? model.formula =
      some (model.dependent.name, String.ofList (' ' :: model.rightHandSide.toList)) := by
  have hchars := Name.isNameChar_of_isSyntactic hn.dependent
  have htilde := notMem_leftSide hn
  have htrim : Text.trim (String.ofList ([] ++ (model.dependent.name.toList ++ [' ']))) =
      String.ofList model.dependent.name.toList :=
    Text.trim_padded (by simp) (List.forall_mem_singleton.mpr (by decide))
      (Name.toList_ne_nil_of_isSyntactic hn.dependent)
      fun c hc => Name.isBlank_of_isNameChar (hchars c hc)
  rw [List.nil_append, String.ofList_toList] at htrim
  rw [sides?, toList_formula, Text.splitAtChar_append htilde, Option.map_some]
  simp only [htrim]

/-- A formula tells the dependent variable and the terms of its model. -/
theorem formula_inj {other : Model} (hn : model.WellNamed) (ho : other.WellNamed)
    (h : model.formula = other.formula) :
    model.dependent.name = other.dependent.name ∧ model.terms = other.terms := by
  have hsides := sides?_formula hn
  rw [h, sides?_formula ho, Option.some.injEq, Prod.mk.injEq] at hsides
  refine ⟨hsides.1.symm, ?_⟩
  rw [← terms_rightHandSide hn, ← hsides.2, terms_rightHandSide ho]

/-- Characters that a term of the right-hand side may have besides those of names. -/
def termMarks : List Char :=
  ['+', '(', '|', ')']

theorem mem_term (hn : model.WellNamed) {term : String} (h : term ∈ model.terms) {c : Char}
    (hc : c ∈ term.toList) : Name.isNameChar c ∨ c ∈ termMarks := by
  rw [terms_eq hn, List.mem_append] at h
  rcases h with h | h
  · exact Or.inl ((isNameChar_of_mem_variables hn h).2 c hc)
  · obtain ⟨e, he, rfl⟩ := List.mem_map.mp h
    obtain ⟨hgroup, hslopes⟩ := hn.randomEffects e he
    simp only [toList_term, List.mem_cons, List.mem_append, List.not_mem_nil, or_false] at hc
    rcases hc with rfl | hc | rfl
    · exact Or.inr (by decide)
    · rcases mem_innerText hgroup hslopes hc with h | rfl | rfl
      · exact Or.inl h
      · exact Or.inr (by decide)
      · exact Or.inr (by decide)
    · exact Or.inr (by decide)

/-- A right-hand side consists of name characters, marks and blanks. -/
theorem mem_rightHandSide (hn : model.WellNamed) {c : Char}
    (hc : c ∈ model.rightHandSide.toList) :
    Name.isNameChar c ∨ c ∈ termMarks ∨ Text.isBlank c := by
  obtain ⟨front, back, hfront, hback, hsep⟩ := exists_separator hn
  rw [Model.rightHandSide, String.toList_intercalate, hsep] at hc
  rcases Text.mem_intercalate hc with hc | ⟨part, hpart, hc⟩
  · rw [List.mem_append, List.mem_cons] at hc
    rcases hc with hc | rfl | hc
    · exact Or.inr (Or.inr (hfront c hc))
    · exact Or.inr (Or.inl (by decide))
    · exact Or.inr (Or.inr (hback c hc))
  · obtain ⟨term, hterm, rfl⟩ := List.mem_map.mp hpart
    rcases mem_term hn hterm hc with h | h
    · exact Or.inl h
    · exact Or.inr (Or.inl h)

/-- A character of another kind does not occur on the right-hand side. -/
theorem notMem_rightHandSide (hn : model.WellNamed) {c : Char} (hname : Name.isNameChar c = false)
    (hmark : c ∉ termMarks) (hblank : Text.isBlank c = false) :
    c ∉ model.rightHandSide.toList := by
  intro hc
  rcases mem_rightHandSide hn hc with h | h | h
  · simp [hname] at h
  · exact hmark h
  · simp [hblank] at h

/-- A character of another kind does not occur in a formula, unless it is the tilde. -/
theorem notMem_formula (hn : model.WellNamed) {c : Char} (hname : Name.isNameChar c = false)
    (hmark : c ∉ termMarks) (hblank : Text.isBlank c = false) (htilde : c ≠ '~') :
    c ∉ model.formula.toList := by
  have hspace : c ≠ ' ' := by
    rintro rfl
    exact absurd hblank (by decide)
  have hdependent := Name.notMem_of_isSyntactic hn.dependent hname
  simp only [toList_formula, List.mem_append, List.mem_cons, List.not_mem_nil, or_false]
  rintro ((h | h) | h | h | h)
  · exact hdependent h
  · exact hspace h
  · exact htilde h
  · exact hspace h
  · exact notMem_rightHandSide hn hname hmark hblank h

theorem count_tilde_formula (hn : model.WellNamed) : model.formula.toList.count '~' = 1 := by
  have hleft := notMem_leftSide hn
  have hright : '~' ∉ ' ' :: model.rightHandSide.toList := by
    rw [List.mem_cons, not_or]
    exact ⟨by decide, notMem_rightHandSide hn (by decide) (by decide) (by decide)⟩
  rw [toList_formula, List.count_append, List.count_cons_self, List.count_eq_zero_of_not_mem hleft,
    List.count_eq_zero_of_not_mem hright]

/-- The terms of random effects are those in parentheses. -/
theorem filter_isRandom_terms (hn : model.WellNamed) :
    model.terms.filter (!isRandom ·) =
        model.independents.map (·.name) ++ model.interactionNames ∧
      model.terms.filter isRandom = model.randomEffects.map (·.term "+") := by
  have hplain : ∀ term ∈ model.independents.map (·.name) ++ model.interactionNames,
      isRandom term = false := fun term h =>
    isRandom_of_isNameChar (isNameChar_of_mem_variables hn h).2
  have hrandom : ∀ term ∈ model.randomEffects.map (·.term "+"), isRandom term = true := by
    intro term h
    obtain ⟨e, -, rfl⟩ := List.mem_map.mp h
    exact isRandom_term e
  rw [terms_eq hn, List.filter_append, List.filter_append (p := isRandom)]
  constructor
  · rw [List.filter_eq_self.mpr (by simpa using hplain),
      List.filter_eq_nil_iff.mpr (by simpa using hrandom), List.append_nil]
  · rw [List.filter_eq_nil_iff.mpr (by simpa using hplain), List.filter_eq_self.mpr hrandom,
      List.nil_append]

/-- **Formulas can be read back.** The formula of a validated model has one tilde. In front of it
    stands the dependent variable. The text behind it, taken apart at the plus signs outside
    parentheses, gives the terms of the model in order: those that open no parenthesis are the
    independent variables and the interactions, and each of the others is the term of one random
    effect, from which its group and slopes are read. -/
theorem formula_reads_back {d : Description} {c : Convention}
    (h : Model.ofDescription d c = .ok model) :
    model.formula.toList.count '~' = 1 ∧
      ∃ right, sides? model.formula = some (model.dependent.name, right) ∧
        terms right = model.terms ∧
        (terms right).filter (!isRandom ·) =
          model.independents.map (·.name) ++ model.interactionNames ∧
        (terms right).filter isRandom = (model.randomEffects.map fun e =>
          "(" ++ "+".intercalate ("1" :: e.slopes) ++ "|" ++ e.group ++ ")") ∧
        ((terms right).filter isRandom).map randomEffect? = model.randomEffects.map some := by
  have hn := Validation.wellNamed_of_ofDescription h
  obtain ⟨hplain, hrandom⟩ := filter_isRandom_terms hn
  refine ⟨count_tilde_formula hn, _, sides?_formula hn, ?_⟩
  rw [terms_rightHandSide hn, hplain, hrandom, List.map_map]
  refine ⟨rfl, rfl, rfl, List.map_congr_left ?_⟩
  intro e he
  obtain ⟨hgroup, hslopes⟩ := hn.randomEffects e he
  exact randomEffect?_term hgroup hslopes

/-- Weights of pigs over time, by diet. -/
def pigWeights : Description :=
  { Description.empty with
    dependent := some (.bare "Weight")
    independent := [.bare "Time", .bare "Diet"]
    interactions := [["Time", "Diet"]]
    random := [⟨"Pig", ["Time"]⟩]
    family := some "gaussian" }

/-- A mixed model with an interaction, under a convention of its own. -/
theorem formula_reads_back_mixed : ∃ model,
    Model.ofDescription pigWeights ⟨" + ", "."⟩ = .ok model ∧
      model.formula = "Weight ~ Time + Diet + Time.Diet + (1+Time|Pig)" ∧
      ∃ right, sides? model.formula = some ("Weight", right) ∧
        terms right = ["Time", "Diet", "Time.Diet", "(1+Time|Pig)"] ∧
        ((terms right).filter isRandom).map randomEffect? = [some ⟨"Pig", ["Time"]⟩] := by
  obtain ⟨model, h⟩ : ∃ model, Model.ofDescription pigWeights ⟨" + ", "."⟩ = .ok model := ⟨_, rfl⟩
  obtain ⟨-, right, hsides, hterms, -, -, heffects⟩ := formula_reads_back h
  cases h
  exact ⟨_, rfl, rfl, right, hsides, hterms, heffects⟩

end Models

end FitScript.Formula
