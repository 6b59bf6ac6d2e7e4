import FitScript.Name
import FitScript.Proofs.Text.Cutting

/-!
# Joined names

Names of interactions are the names of their variables with a joiner between them.

* `isSyntactic_iff`: what a name consists of, and how it starts.
* `isSyntactic_intercalate_iff`: a joiner of name characters keeps joined names syntactic, unless
  it puts a digit behind a name that is a single dot, or the joined name is reserved.
* `isSyntactic_intercalate_of_safe`: which joiners never do that.
-/

namespace FitScript.Name

/-! ## Characters of names -/

theorem isSyntactic_iff {name : String} :
    isSyntactic name ↔
      startsName name.toList ∧ (∀ c ∈ name.toList, isNameChar c) ∧ name ∉ reserved := by
  simp [isSyntactic, and_assoc]

theorem isNameChar_of_isSyntactic {name : String} (h : isSyntactic name) :
    ∀ c ∈ name.toList, isNameChar c :=
  (isSyntactic_iff.mp h).2.1

theorem notMem_of_isSyntactic {name : String} (h : isSyntactic name) {c : Char}
    (hc : isNameChar c = false) : c ∉ name.toList := by
  intro hmem
  simp [isNameChar_of_isSyntactic h c hmem] at hc

theorem toList_ne_nil_of_isSyntactic {name : String} (h : isSyntactic name) :
    name.toList ≠ [] := by
  intro hnil
  have := (isSyntactic_iff.mp h).1
  simp [hnil, startsName] at this

theorem isAlpha_iff {c : Char} : c.isAlpha ↔
    (65 ≤ c.toNat ∧ c.toNat ≤ 90) ∨ (97 ≤ c.toNat ∧ c.toNat ≤ 122) := by
  show (decide (65 ≤ c.val ∧ c.val ≤ 90) ||
    (decide (97 ≤ c.val) && decide (c.val ≤ 122))) = true ↔ _
  simp only [Bool.or_eq_true, Bool.and_eq_true, decide_eq_true_eq, UInt32.le_iff_toNat_le]
  rfl

theorem isDigit_iff {c : Char} : c.isDigit ↔ 48 ≤ c.toNat ∧ c.toNat ≤ 57 := by
  show (decide (48 ≤ c.val) && decide (c.val ≤ 57)) = true ↔ _
  simp only [Bool.and_eq_true, decide_eq_true_eq, UInt32.le_iff_toNat_le]
  rfl

theorem isNameChar_iff {c : Char} :
    isNameChar c ↔ c.isAlpha ∨ c.isDigit ∨ c = '.' ∨ c = '_' := by
  simp [isNameChar, Char.isAlphanum, or_assoc]

theorem code_of_isNameChar {c : Char} (h : isNameChar c) :
    (48 ≤ c.toNat ∧ c.toNat ≤ 57) ∨ (65 ≤ c.toNat ∧ c.toNat ≤ 90) ∨
      (97 ≤ c.toNat ∧ c.toNat ≤ 122) ∨ c.toNat = 46 ∨ c.toNat = 95 := by
  rw [isNameChar_iff, isAlpha_iff, isDigit_iff] at h
  rcases h with (h | h) | h | rfl | rfl
  · exact Or.inr (Or.inl h)
  · exact Or.inr (Or.inr (Or.inl h))
  · exact Or.inl h
  · decide
  · decide

/-- No blank stands in a name. -/
theorem isBlank_of_isNameChar {c : Char} (h : isNameChar c) : Text.isBlank c = false := by
  have := code_of_isNameChar h
  simp only [Text.isBlank, Bool.or_eq_false_iff, Bool.and_eq_false_iff, decide_eq_false_iff_not,
    beq_eq_false_iff_ne]
  omega

theorem isNameChar_joiner {joiner : String} (h : isSyntactic ("a" ++ joiner ++ "b")) :
    ∀ c ∈ joiner.toList, isNameChar c := by
  intro c hc
  apply isNameChar_of_isSyntactic h
  simp [hc]

/-! ## Joined names -/

/-- A joined text consists of name characters if its parts and the joiner do. -/
theorem isNameChar_intercalate {joiner : String} {names : List String}
    (hjoiner : ∀ c ∈ joiner.toList, isNameChar c) (hnames : ∀ name ∈ names, isSyntactic name) :
    ∀ c ∈ (joiner.intercalate names).toList, isNameChar c := by
  intro c hc
  rw [String.toList_intercalate] at hc
  rcases Text.mem_intercalate hc with hc | ⟨part, hpart, hc⟩
  · exact hjoiner c hc
  · obtain ⟨name, hname, rfl⟩ := List.mem_map.mp hpart
    exact isNameChar_of_isSyntactic (hnames name hname) c hc

theorem toList_intercalate_ne_nil {joiner : String} {names : List String} (hne : names ≠ [])
    (hnames : ∀ name ∈ names, isSyntactic name) : (joiner.intercalate names).toList ≠ [] := by
  obtain ⟨first, rest, rfl⟩ := List.exists_cons_of_ne_nil hne
  have hfirst := toList_ne_nil_of_isSyntactic (hnames first (by simp))
  cases rest with
  | nil => simpa using hfirst
  | cons second rest => simp_all

/-- Whether a text starts with a digit. -/
def startsWithDigit (s : String) : Bool :=
  s.toList.head?.any Char.isDigit

theorem isDigit_of_isAlpha {c : Char} (h : c.isAlpha) : c.isDigit = false := by
  rw [isAlpha_iff] at h
  rw [Bool.eq_false_iff, Ne, isDigit_iff]
  omega

/-- A name starts with a letter, or with a dot that no digit follows. -/
theorem startsName_cons {c : Char} {rest : List Char} :
    startsName (c :: rest) ↔ c.isAlpha ∨ (c = '.' ∧ rest.head?.any Char.isDigit = false) := by
  by_cases hc : c = '.'
  · subst hc
    have hdot : Char.isAlpha '.' = false := by decide
    cases rest <;> simp [startsName, hdot]
  · cases rest <;> simp [startsName, hc]

/-- No name starts with a digit. -/
theorem head_of_startsName {cs : List Char} (h : startsName cs) :
    cs.head?.any Char.isDigit = false := by
  cases cs with
  | nil => rfl
  | cons c rest =>
    rw [startsName_cons] at h
    rcases h with h | ⟨rfl, -⟩
    · exact isDigit_of_isAlpha h
    · rfl

/-- What follows a name start spoils it iff the name is a dot and a digit follows. -/
theorem startsName_append {cs rest : List Char} (h : startsName cs) :
    startsName (cs ++ rest) ↔ ¬ (cs = ['.'] ∧ rest.head?.any Char.isDigit) := by
  cases cs with
  | nil => simp [startsName] at h
  | cons c cs =>
    rw [startsName_cons] at h
    rw [List.cons_append, startsName_cons]
    rcases h with h | ⟨rfl, h⟩
    · have hc : c ≠ '.' := by
        rintro rfl
        exact absurd h (by decide)
      simp [h, hc]
    · cases cs with
      | nil => simp
      | cons d cs => simpa using h

/-- **When joined names are names.** Two or more names with a joiner of name characters between
    them make a name, unless the first one is a dot and the joiner starts with a digit, or the
    joined name is reserved. -/
theorem isSyntactic_intercalate_iff {joiner first second : String} {others : List String}
    (hjoiner : ∀ c ∈ joiner.toList, isNameChar c)
    (hnames : ∀ name ∈ first :: second :: others, isSyntactic name) :
    isSyntactic (joiner.intercalate (first :: second :: others)) ↔
      ¬ (first = "." ∧ startsWithDigit joiner) ∧
        joiner.intercalate (first :: second :: others) ∉ reserved := by
  have hfirst := (isSyntactic_iff.mp (hnames first (by simp))).1
  have hsecond := (isSyntactic_iff.mp (hnames second (by simp))).1
  have hrest : ∀ cs : List Char,
      (joiner.toList ++ (second.toList ++ cs)).head?.any Char.isDigit = startsWithDigit joiner := by
    intro cs
    have hhead := head_of_startsName hsecond
    unfold startsWithDigit
    cases joiner.toList with
    | nil =>
      obtain ⟨c, tail, hc⟩ := List.exists_cons_of_ne_nil
        (toList_ne_nil_of_isSyntactic (hnames second (by simp)))
      rw [hc] at hhead ⊢
      exact hhead
    | cons c tail => rfl
  have htext : ∃ cs, (joiner.intercalate (first :: second :: others)).toList =
      first.toList ++ (joiner.toList ++ (second.toList ++ cs)) := by
    cases others with
    | nil => exact ⟨[], by simp⟩
    | cons third others =>
      exact ⟨joiner.toList ++ (joiner.intercalate (third :: others)).toList, by simp⟩
  obtain ⟨cs, htext⟩ := htext
  have hdot : first.toList = ['.'] ↔ first = "." := by
    rw [← String.toList_inj]
    rfl
  rw [isSyntactic_iff, htext, startsName_append hfirst, hrest, hdot, ← htext]
  have hchars := isNameChar_intercalate hjoiner hnames
  exact ⟨fun h => ⟨h.1, h.2.2⟩, fun h => ⟨h.1, hchars, h.2⟩⟩

/-- A joiner that starts with no digit and stands in no reserved word. -/
def IsSafeJoiner (joiner : String) : Prop :=
  startsWithDigit joiner = false ∧ ∀ word ∈ reserved, ¬ joiner.toList <:+: word.toList

instance (joiner : String) : Decidable (IsSafeJoiner joiner) :=
  inferInstanceAs (Decidable (_ ∧ _))

/-- A safe joiner never spoils a name. -/
theorem isSyntactic_intercalate_of_safe {joiner first second : String} {others : List String}
    (hsafe : IsSafeJoiner joiner) (hjoiner : ∀ c ∈ joiner.toList, isNameChar c)
    (hnames : ∀ name ∈ first :: second :: others, isSyntactic name) :
    isSyntactic (joiner.intercalate (first :: second :: others)) := by
  rw [isSyntactic_intercalate_iff hjoiner hnames]
  refine ⟨fun h => by simp [hsafe.1] at h, fun hmem => hsafe.2 _ hmem ?_⟩
  exact ⟨first.toList, (joiner.intercalate (second :: others)).toList, by simp⟩

example : IsSafeJoiner "_X_" := by decide +kernel

end FitScript.Name
