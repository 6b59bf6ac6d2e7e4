/-!
# Pieces between separators

* `separate`: what stands between the occurrences of an item of a list. `separate_append_cons`: a
  list is cut at each of them.
-/

namespace FitScript.Text

variable {α : Type} [DecidableEq α] {separator : α}

/-- What stands between the occurrences of an item. -/
def separate (separator : α) : List α → List (List α)
  | [] => [[]]
  | a :: rest =>
    if a = separator then [] :: separate separator rest
    else
      match separate separator rest with
      | [] => [[a]]
      | piece :: pieces => (a :: piece) :: pieces

theorem separate_ne_nil (items : List α) : separate separator items ≠ [] := by
  cases items with
  | nil => simp [separate]
  | cons a rest =>
    rw [separate]
    split
    · simp
    · split <;> simp

/-- An item that is no separator belongs to the first piece. -/
theorem separate_cons_of_ne {a : α} (h : a ≠ separator) {rest piece : List α}
    {pieces : List (List α)} (hrest : separate separator rest = piece :: pieces) :
    separate separator (a :: rest) = (a :: piece) :: pieces := by
  rw [separate, if_neg h, hrest]

theorem separate_append_cons (front back : List α) :
    separate separator (front ++ separator :: back) =
      separate separator front ++ separate separator back := by
  induction front with
  | nil => simp [separate]
  | cons a front ih =>
    obtain ⟨piece, pieces, hfront⟩ := List.exists_cons_of_ne_nil (separate_ne_nil front)
    by_cases h : a = separator
    · rw [List.cons_append, separate, if_pos h, ih, separate, if_pos h, List.cons_append]
    · rw [hfront, List.cons_append] at ih
      rw [List.cons_append, separate_cons_of_ne h ih, separate_cons_of_ne h hfront,
        List.cons_append]

theorem separate_of_notMem {items : List α} (h : separator ∉ items) :
    separate separator items = [items] := by
  induction items with
  | nil => rfl
  | cons a rest ih =>
    rw [List.mem_cons, not_or] at h
    exact separate_cons_of_ne (Ne.symm h.1) (ih h.2)

/-- No separator stands in a piece. -/
theorem notMem_of_mem_separate {items piece : List α} (h : piece ∈ separate separator items) :
    separator ∉ piece := by
  induction items generalizing piece with
  | nil =>
    obtain rfl := List.mem_singleton.mp h
    exact List.not_mem_nil
  | cons a rest ih =>
    obtain ⟨first, pieces, hrest⟩ := List.exists_cons_of_ne_nil (separate_ne_nil rest)
    by_cases ha : a = separator
    · rw [separate, if_pos ha, List.mem_cons] at h
      rcases h with rfl | h
      · exact List.not_mem_nil
      · exact ih h
    · rw [separate_cons_of_ne ha hrest, List.mem_cons] at h
      rcases h with rfl | h
      · rw [List.mem_cons, not_or]
        exact ⟨Ne.symm ha, ih (by simp [hrest])⟩
      · exact ih (by simp [hrest, h])

end FitScript.Text
