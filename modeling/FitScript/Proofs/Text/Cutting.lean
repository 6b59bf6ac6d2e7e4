import FitScript.Template
import FitScript.Text.Blank

/-!
# Cutting texts that were joined

* `mem_intercalate`: a joined text has no other characters than its parts and its separator;
  `mem_intercalate_of_mem_part`, `mem_intercalate_of_mem_separator`: it has all of these.
* `splitAtChar_append`, `append_cons_inj`: a separator that does not occur in front of it tells
  where it stands; `append_cons_cases`: two places of one text.
* `exists_of_trim_eq`, `trim_padded`: trimming takes blanks away and nothing else.
-/

namespace FitScript.Text

/-! ## Joining -/

theorem mem_intercalate {α : Type} {separator : List α} {parts : List (List α)} {a : α}
    (h : a ∈ separator.intercalate parts) : a ∈ separator ∨ ∃ part ∈ parts, a ∈ part := by
  induction parts with
  | nil => simp at h
  | cons part rest ih =>
    cases rest with
    | nil =>
      rw [List.intercalate_singleton] at h
      exact Or.inr ⟨part, by simp, h⟩
    | cons next rest =>
      rw [List.intercalate_cons_cons, List.mem_append, List.mem_append] at h
      rcases h with (h | h) | h
      · exact Or.inr ⟨part, by simp, h⟩
      · exact Or.inl h
      · rcases ih h with h | ⟨p, hp, ha⟩
        · exact Or.inl h
        · exact Or.inr ⟨p, List.mem_cons_of_mem _ hp, ha⟩

/-- Every part of a joined text stands in it. -/
theorem mem_intercalate_of_mem_part {α : Type} {separator : List α} {parts : List (List α)}
    {part : List α} (hpart : part ∈ parts) {a : α} (ha : a ∈ part) :
    a ∈ separator.intercalate parts := by
  induction parts with
  | nil => exact absurd hpart List.not_mem_nil
  | cons first rest ih =>
    cases rest with
    | nil =>
      rw [List.mem_singleton] at hpart
      rwa [List.intercalate_singleton, ← hpart]
    | cons next rest =>
      rw [List.intercalate_cons_cons, List.mem_append, List.mem_append]
      rcases List.mem_cons.mp hpart with rfl | hrest
      · exact Or.inl (Or.inl ha)
      · exact Or.inr (ih hrest)

/-- Where two parts are joined, the separator stands between them. -/
theorem mem_intercalate_of_mem_separator {α : Type} {separator first second : List α}
    {parts : List (List α)} {a : α} (ha : a ∈ separator) :
    a ∈ separator.intercalate (first :: second :: parts) := by
  rw [List.intercalate_cons_cons, List.mem_append, List.mem_append]
  exact Or.inl (Or.inr ha)

/-! ## Separators -/

open Template

theorem splitAtChar_append {separator : Char} {before : List Char} (h : separator ∉ before)
    (after : List Char) :
    splitAtChar separator (before ++ separator :: after) = some (before, after) := by
  induction before with
  | nil => simp [splitAtChar]
  | cons c rest ih =>
    rw [List.mem_cons, not_or] at h
    rw [List.cons_append, splitAtChar, if_neg (Ne.symm h.1), ih h.2]
    rfl

/-- Two places of one text are the same, or one of them stands in front of the other. -/
theorem append_cons_cases {α : Type} {a b : α} {front back before after : List α}
    (h : front ++ a :: back = before ++ b :: after) :
    (front = before ∧ a = b ∧ back = after) ∨
      (∃ between, before = front ++ a :: between ∧ back = between ++ b :: after) ∨
      ∃ between, front = before ++ b :: between ∧ after = between ++ a :: back := by
  rcases List.append_eq_append_iff.mp h with ⟨more, hbefore, hrest⟩ | ⟨more, hfront, hrest⟩
  · cases more with
    | nil =>
      rw [List.append_nil] at hbefore
      obtain ⟨hsame, hback⟩ := List.cons.inj hrest
      exact .inl ⟨hbefore.symm, hsame, hback⟩
    | cons c between =>
      obtain ⟨rfl, hback⟩ := List.cons.inj hrest
      exact .inr (.inl ⟨between, hbefore, hback⟩)
  · cases more with
    | nil =>
      rw [List.append_nil] at hfront
      obtain ⟨hsame, hafter⟩ := List.cons.inj hrest
      exact .inl ⟨hfront, hsame.symm, hafter.symm⟩
    | cons c between =>
      obtain ⟨rfl, hafter⟩ := List.cons.inj hrest
      exact .inr (.inr ⟨between, hfront, hafter⟩)

/-- A separator that does not occur in front of it tells two parts of a text apart. -/
theorem append_cons_inj {separator : Char} {a b x y : List Char} (ha : separator ∉ a)
    (hb : separator ∉ b) (h : a ++ separator :: x = b ++ separator :: y) : a = b ∧ x = y := by
  have hsplit := splitAtChar_append ha x
  rw [h, splitAtChar_append hb, Option.some.injEq, Prod.mk.injEq] at hsplit
  exact ⟨hsplit.1.symm, hsplit.2.symm⟩

/-! ## Trimming -/

/-- What is left in front of a text without its blanks at the start is blank. -/
theorem exists_append_dropBlanks (cs : List Char) :
    ∃ blanks, (∀ c ∈ blanks, isBlank c) ∧ cs = blanks ++ dropBlanks cs := by
  refine ⟨cs.takeWhile isBlank, ?_, List.takeWhile_append_dropWhile.symm⟩
  intro c hc
  exact List.all_eq_true.mp List.all_takeWhile c hc

/-- A trimmed text stood between blanks. -/
theorem exists_of_trim_eq {s t : String} (h : trim s = t) :
    ∃ front back, (∀ c ∈ front, isBlank c) ∧ (∀ c ∈ back, isBlank c) ∧
      s.toList = front ++ (t.toList ++ back) := by
  obtain ⟨front, hfront, hs⟩ := exists_append_dropBlanks s.toList
  obtain ⟨back, hback, hend⟩ := exists_append_dropBlanks (dropBlanks s.toList).reverse
  refine ⟨front, back.reverse, hfront, fun c hc => hback c (List.mem_reverse.mp hc), ?_⟩
  have ht : t.toList = (dropBlanks (dropBlanks s.toList).reverse).reverse := by
    rw [← h, trim, String.toList_ofList, dropEndBlanks]
  rw [ht, ← List.reverse_append, ← hend, List.reverse_reverse, ← hs]

theorem dropBlanks_append_of_not_blank {blanks cs rest : List Char}
    (hblanks : ∀ c ∈ blanks, isBlank c) (hne : cs ≠ []) (hcs : ∀ c ∈ cs, isBlank c = false) :
    dropBlanks (blanks ++ (cs ++ rest)) = cs ++ rest := by
  obtain ⟨c, cs, rfl⟩ := List.exists_cons_of_ne_nil hne
  rw [dropBlanks, List.dropWhile_append_of_pos hblanks, List.cons_append,
    List.dropWhile_cons_of_neg (by simp [hcs c])]

/-- A text without blanks is left when it is trimmed between blanks. -/
theorem trim_padded {front cs back : List Char} (hfront : ∀ c ∈ front, isBlank c)
    (hback : ∀ c ∈ back, isBlank c) (hne : cs ≠ []) (hcs : ∀ c ∈ cs, isBlank c = false) :
    trim (String.ofList (front ++ (cs ++ back))) = String.ofList cs := by
  rw [trim, String.toList_ofList, dropBlanks_append_of_not_blank hfront hne hcs, dropEndBlanks,
    List.reverse_append]
  have hrest : dropBlanks (back.reverse ++ (cs.reverse ++ [])) = cs.reverse ++ [] :=
    dropBlanks_append_of_not_blank (by simpa using hback) (by simpa using hne) (by simpa using hcs)
  rw [List.append_nil] at hrest
  rw [hrest, List.reverse_reverse]

end FitScript.Text
