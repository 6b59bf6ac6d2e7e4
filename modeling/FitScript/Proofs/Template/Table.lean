import FitScript.Proofs.Outcome
import FitScript.Template.Builtin
import Mathlib.Data.List.Nodup

/-!
# Looking up templates

* `fragment_eq_ok_iff`: a fragment that is found is the first of its category with its key.
* `key_eq_of_fragment`: in a category of different texts a text tells its key.
-/

namespace FitScript.TemplateTable

variable {table : TemplateTable} {category key text : String}

theorem category_eq_ok_iff {fragments : List Fragment} :
    table.category category = .ok fragments ↔
      table.categories.lookup category = some fragments := by
  unfold TemplateTable.category
  cases table.categories.lookup category <;> simp

theorem fragment_eq_ok_iff :
    table.fragment category key = .ok text ↔
      ∃ fragments, table.categories.lookup category = some fragments ∧
        ∃ found, fragments.find? (·.key == key) = some found ∧ found.text = text := by
  unfold fragment
  rw [Outcome.bind_eq_ok_iff]
  simp only [category_eq_ok_iff]
  refine exists_congr fun fragments => and_congr_right fun _ => ?_
  cases fragments.find? (·.key == key) with
  | none => simp [throw, throwThe, MonadExceptOf.throw]
  | some found => simp [Outcome.pure_eq_ok_iff]

/-- A fragment that is found is in its category, under the key that was sought. -/
theorem exists_mem_of_fragment (h : table.fragment category key = .ok text) :
    ∃ fragments, table.categories.lookup category = some fragments ∧
      ∃ found ∈ fragments, found.key = key ∧ found.text = text := by
  obtain ⟨fragments, hcategory, found, hfound, htext⟩ := fragment_eq_ok_iff.mp h
  refine ⟨fragments, hcategory, found, List.mem_of_find?_eq_some hfound, ?_, htext⟩
  simpa using List.find?_some hfound

/-- Where all texts of a category are different, each is found under one key only. -/
theorem key_eq_of_fragment {fragments : List Fragment} {other : String}
    (hcategory : table.categories.lookup category = some fragments)
    (hnodup : (fragments.map (·.text)).Nodup) (h : table.fragment category key = .ok text)
    (hother : table.fragment category other = .ok text) : key = other := by
  obtain ⟨fs, hfs, f, hf, rfl, hftext⟩ := exists_mem_of_fragment h
  obtain ⟨gs, hgs, g, hg, rfl, hgtext⟩ := exists_mem_of_fragment hother
  rw [hcategory, Option.some.injEq] at hfs hgs
  subst hfs hgs
  rw [List.inj_on_of_nodup_map hnodup hf hg (hftext.trans hgtext.symm)]

end FitScript.TemplateTable
