import FitScript.Proofs.Text.Cutting

/-!
# Lines of texts

* `Text.lines`: what stands between the line feeds of a text.
* `lines_append_newline`: a line feed keeps the lines around it apart.
* `forall_lines_append`, `forall_lines_intercalate`: without one, the last line of a text and the
  first line of the next become one. So a property of lines that is kept when lines are joined is
  kept when texts are.
-/

namespace FitScript.Text

/-- The lines of a text. A text that ends with a line feed has an empty line behind it. -/
def lines (text : String) : List String :=
  (text.toList.splitOn '\n').map String.ofList

example : lines "a\nb c\n" = ["a", "b c", ""] := by decide

theorem lines_of_notMem {text : String} (h : '\n' ∉ text.toList) : lines text = [text] := by
  rw [lines, List.splitOn_eq_singleton h, List.map_singleton, String.ofList_toList]

theorem lines_append_newline (before after : String) :
    lines (before ++ "\n" ++ after) = lines before ++ lines after := by
  have htext : (before ++ "\n" ++ after).toList = before.toList ++ '\n' :: after.toList := by simp
  rw [lines, htext, List.splitOn_append_cons_self, List.map_append]
  rfl

theorem lines_concat_newline (text : String) : lines (text ++ "\n") = lines text ++ [""] := by
  have h := lines_append_newline text ""
  rw [String.append_empty] at h
  exact h

/-- A line has no other characters than its text. -/
theorem mem_of_mem_lines {text line : String} (h : line ∈ lines text) {c : Char}
    (hc : c ∈ line.toList) : c ∈ text.toList := by
  obtain ⟨piece, hpiece, rfl⟩ := List.mem_map.mp h
  have hjoined : ['\n'].intercalate (text.toList.splitOn '\n') = text.toList :=
    List.intercalate_splitOn '\n'
  rw [String.toList_ofList] at hc
  rw [← hjoined]
  exact mem_intercalate_of_mem_part hpiece hc

/-- Where two lists meet, the last piece of the one and the first piece of the other become one. -/
theorem splitOn_append (separator : Char) (a b : List Char) : ∃ front last first back,
    a.splitOn separator = front ++ [last] ∧ b.splitOn separator = first :: back ∧
      (a ++ b).splitOn separator = front ++ (last ++ first) :: back := by
  obtain ⟨first, back, hb⟩ := List.exists_cons_of_ne_nil (List.splitOn_ne_nil separator b)
  induction a with
  | nil => exact ⟨[], [], first, back, rfl, hb, hb⟩
  | cons c a ih =>
    obtain ⟨front, last, first', back', ha, hb', hab⟩ := ih
    obtain ⟨rfl, rfl⟩ := List.cons.inj (hb'.symm.trans hb)
    unfold List.splitOn at ha hb hab ⊢
    by_cases hc : c = separator
    · refine ⟨[] :: front, last, first', back', ?_, hb, ?_⟩
      · simp [List.splitOnP_cons_eq_if_modifyHead, hc, ha]
      · simp [List.splitOnP_cons_eq_if_modifyHead, hc, hab]
    · cases front with
      | nil =>
        refine ⟨[], c :: last, first', back', ?_, hb, ?_⟩
        · simp [List.splitOnP_cons_eq_if_modifyHead, hc, ha]
        · simp [List.splitOnP_cons_eq_if_modifyHead, hc, hab]
      | cons line front =>
        refine ⟨(c :: line) :: front, last, first', back', ?_, hb, ?_⟩
        · simp [List.splitOnP_cons_eq_if_modifyHead, hc, ha]
        · simp [List.splitOnP_cons_eq_if_modifyHead, hc, hab]

/-- What holds of the lines of two texts holds of the lines of both together, if joining two lines
    keeps it. -/
theorem forall_lines_append {p : String → Prop} (hjoin : ∀ x y, p x → p y → p (x ++ y))
    {a b : String} (ha : ∀ line ∈ lines a, p line) (hb : ∀ line ∈ lines b, p line) :
    ∀ line ∈ lines (a ++ b), p line := by
  obtain ⟨front, last, first, back, hfront, hback, hboth⟩ := splitOn_append '\n' a.toList b.toList
  have hlines : lines (a ++ b) = front.map String.ofList ++
      (String.ofList last ++ String.ofList first) :: back.map String.ofList := by
    simp [lines, hboth]
  simp only [lines, hfront, List.map_append, List.map_singleton, List.forall_mem_append,
    List.forall_mem_singleton] at ha
  simp only [lines, hback, List.map_cons, List.forall_mem_cons] at hb
  rw [hlines, List.forall_mem_append, List.forall_mem_cons]
  exact ⟨ha.1, hjoin _ _ ha.2 hb.1, hb.2⟩

/-- So it does of the lines of a joined text. -/
theorem forall_lines_intercalate {p : String → Prop} (hjoin : ∀ x y, p x → p y → p (x ++ y))
    {separator : String} (hseparator : ∀ line ∈ lines separator, p line) {parts : List String}
    (hne : parts ≠ []) (hparts : ∀ part ∈ parts, ∀ line ∈ lines part, p line) :
    ∀ line ∈ lines (separator.intercalate parts), p line := by
  induction parts with
  | nil => exact absurd rfl hne
  | cons part rest ih =>
    rw [List.forall_mem_cons] at hparts
    cases rest with
    | nil =>
      rw [String.intercalate_singleton]
      exact hparts.1
    | cons next rest =>
      rw [String.intercalate_cons_cons]
      exact forall_lines_append hjoin (forall_lines_append hjoin hparts.1 hseparator)
        (ih (List.cons_ne_nil next rest) hparts.2)

end FitScript.Text
