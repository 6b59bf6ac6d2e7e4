import FitScript.Proofs.Name.Joined

/-!
# Identifiers and reserved words

The identifiers of R that stand for a name, stated without the check of names, and how far the
check agrees with them.

* `IsIdentifier`: how an identifier of ASCII characters is spelled.
* `IsReserved`: the words of the language, which are not only those of a list: `IsPositional` words
  such as `..1` stand for an argument by its position.
* `isIdentifier_iff`, `isReserved_iff`: what the check knows of both.
* `isSyntactic_iff_isIdentifier`: it accepts the identifiers that are not reserved, and the
  positional words.
* `isSyntactic_firstPosition`: `..1` is one of these.
-/

namespace FitScript.Name

/-! ## The language -/

/-- An ASCII letter. -/
def IsLetter (c : Char) : Prop :=
  ('A' ≤ c ∧ c ≤ 'Z') ∨ ('a' ≤ c ∧ c ≤ 'z')

/-- An ASCII digit. -/
def IsDigit (c : Char) : Prop :=
  '0' ≤ c ∧ c ≤ '9'

instance (c : Char) : Decidable (IsDigit c) :=
  inferInstanceAs (Decidable (_ ∧ _))

/-- An identifier consists of letters, digits, dots and underscores. It starts with a letter, or
    with a dot that no digit follows. -/
structure IsIdentifier (name : String) : Prop where
  chars : ∀ c ∈ name.toList, IsLetter c ∨ IsDigit c ∨ c = '.' ∨ c = '_'
  start : ∃ first rest, name.toList = first :: rest ∧
    (IsLetter first ∨ (first = '.' ∧ ∀ next ∈ rest.head?, ¬ IsDigit next))

/-- A word for an argument by its position: two dots and digits. -/
def IsPositional (word : String) : Prop :=
  ∃ digits, digits ≠ [] ∧ (∀ c ∈ digits, IsDigit c) ∧ word.toList = '.' :: '.' :: digits

/-- Words of control flow. -/
def controlWords : List String :=
  ["if", "else", "repeat", "while", "function", "for", "in", "next", "break"]

/-- Words for constants. -/
def constants : List String :=
  ["TRUE", "FALSE", "NULL", "Inf", "NaN", "NA", "NA_integer_", "NA_real_", "NA_character_",
   "NA_complex_"]

/-- The words that are reserved for the language. -/
inductive IsReserved : String → Prop where
  | control {word : String} : word ∈ controlWords → IsReserved word
  | constant {word : String} : word ∈ constants → IsReserved word
  /-- All further arguments of a function. -/
  | ellipsis : IsReserved "..."
  /-- One of the further arguments. -/
  | positional {word : String} : IsPositional word → IsReserved word

/-! ## What the check knows -/

theorem isLetter_iff {c : Char} : IsLetter c ↔ c.isAlpha := by
  rw [isAlpha_iff]
  rfl

theorem isDigit_iff_isDigit {c : Char} : IsDigit c ↔ c.isDigit := by
  rw [isDigit_iff]
  rfl

theorem isNameChar_iff_isLetter {c : Char} :
    isNameChar c ↔ IsLetter c ∨ IsDigit c ∨ c = '.' ∨ c = '_' := by
  rw [isNameChar_iff, isLetter_iff, isDigit_iff_isDigit]

theorem startsName_iff {cs : List Char} : startsName cs ↔ ∃ first rest, cs = first :: rest ∧
    (IsLetter first ∨ (first = '.' ∧ ∀ next ∈ rest.head?, ¬ IsDigit next)) := by
  cases cs with
  | nil => simp [startsName]
  | cons first rest =>
    have hnext : rest.head?.any Char.isDigit = false ↔ ∀ next ∈ rest.head?, ¬ IsDigit next := by
      simp only [isDigit_iff_isDigit]
      cases rest.head? <;> simp
    rw [startsName_cons, hnext, isLetter_iff.symm]
    simp only [List.cons.injEq, exists_and_left, exists_eq_left', and_assoc]

/-- The check looks at the start and the characters of a name as the language does. -/
theorem isIdentifier_iff {name : String} :
    IsIdentifier name ↔ startsName name.toList ∧ ∀ c ∈ name.toList, isNameChar c := by
  simp only [startsName_iff, isNameChar_iff_isLetter]
  exact ⟨fun h => ⟨h.start, h.chars⟩, fun h => ⟨h.2, h.1⟩⟩

/-- The check has a list of all reserved words but the positional ones. -/
theorem isReserved_iff {word : String} : IsReserved word ↔ word ∈ reserved ∨ IsPositional word := by
  have hlist : reserved = controlWords ++ (constants ++ ["..."]) := rfl
  rw [hlist, List.mem_append, List.mem_append, List.mem_singleton]
  constructor
  · rintro (h | h | - | h)
    · exact Or.inl (Or.inl h)
    · exact Or.inl (Or.inr (Or.inl h))
    · exact Or.inl (Or.inr (Or.inr rfl))
    · exact Or.inr h
  · rintro ((h | h | rfl) | h)
    · exact .control h
    · exact .constant h
    · exact .ellipsis
    · exact .positional h

/-- Positional words are spelled as identifiers are. -/
theorem IsPositional.isIdentifier {word : String} (h : IsPositional word) : IsIdentifier word := by
  obtain ⟨digits, -, hdigits, hword⟩ := h
  refine ⟨?_, '.', '.' :: digits, hword, Or.inr ⟨rfl, ?_⟩⟩
  · have hdot : IsLetter '.' ∨ IsDigit '.' ∨ '.' = '.' ∨ '.' = '_' := Or.inr (Or.inr (Or.inl rfl))
    rw [hword, List.forall_mem_cons, List.forall_mem_cons]
    exact ⟨hdot, hdot, fun c hc => Or.inr (Or.inl (hdigits c hc))⟩
  · rw [List.head?_cons]
    rintro next ⟨⟩
    decide

/-- No word of the list is two dots and a digit. -/
theorem notMem_reserved_of_isPositional {word : String} (h : IsPositional word) :
    word ∉ reserved := by
  have hlist : ∀ listed ∈ reserved, listed.toList.take 2 = ['.', '.'] →
      (listed.toList.drop 2).head?.any Char.isDigit = false := by decide +kernel
  obtain ⟨digits, hne, hdigits, hword⟩ := h
  obtain ⟨first, rest, rfl⟩ := List.exists_cons_of_ne_nil hne
  intro hmem
  have hfirst := hlist word hmem (by rw [hword]; rfl)
  rw [hword] at hfirst
  exact absurd (isDigit_iff_isDigit.mp (hdigits first (by simp))) (by simpa using hfirst)

/-- **The check accepts the identifiers that are not reserved**, and of the reserved words the
    positional ones. -/
theorem isSyntactic_iff_isIdentifier (name : String) :
    isSyntactic name ↔ (IsIdentifier name ∧ ¬ IsReserved name) ∨ IsPositional name := by
  have hsyntactic : isSyntactic name ↔ IsIdentifier name ∧ name ∉ reserved := by
    rw [isSyntactic_iff, isIdentifier_iff, and_assoc]
  rw [hsyntactic, isReserved_iff, not_or]
  constructor
  · rintro ⟨hidentifier, hlisted⟩
    by_cases hpositional : IsPositional name
    · exact Or.inr hpositional
    · exact Or.inl ⟨hidentifier, hlisted, hpositional⟩
  · rintro (⟨hidentifier, hlisted, -⟩ | hpositional)
    · exact ⟨hidentifier, hlisted⟩
    · exact ⟨hpositional.isIdentifier, notMem_reserved_of_isPositional hpositional⟩

/-- The word for the first of the further arguments is reserved, and is taken for a name. -/
theorem isSyntactic_firstPosition : IsReserved "..1" ∧ isSyntactic "..1" = true := by
  have hpositional : IsPositional "..1" := ⟨['1'], by decide, by simp [IsDigit], rfl⟩
  exact ⟨.positional hpositional, by decide⟩

end FitScript.Name
