import FitScript.Proofs.Outcome
import FitScript.Proofs.Text.Cutting
import FitScript.Script

/-!
# Sections of scripts

* `script_eq_ok_iff`, `preamble_eq_ok_iff`: when the script and its preamble are generated, and
  from what.
* `sectionText_append_inj`: a section tells its lines, and where it ends.
-/

namespace FitScript.Generator

variable {g : Generator} {text : String}

/-! ## Generation -/

theorem script_eq_ok_iff :
    g.script = .ok text ↔ ∃ preamble loading modeling,
      g.preamble = .ok preamble ∧ g.loading = .ok loading ∧ g.modeling = .ok modeling ∧
        preamble ++ loading ++ modeling = text := by
  unfold script sections
  simp only [Outcome.map_eq_ok_iff, Outcome.bind_eq_ok_iff, Outcome.pure_eq_ok_iff]
  constructor
  · rintro ⟨-, ⟨p, hp, l, hl, m, hm, rfl⟩, rfl⟩
    exact ⟨p, l, m, hp, hl, hm, rfl⟩
  · rintro ⟨p, l, m, hp, hl, hm, rfl⟩
    exact ⟨_, ⟨p, hp, l, hl, m, hm, rfl⟩, rfl⟩

/-- The lines that a category of templates has for some packages. -/
def PackageLines (g : Generator) (category : String) (lines : List String) : Prop :=
  List.Forall₂ (fun package line => g.templates.fragment category package = .ok line)
    g.packages lines

theorem preamble_eq_ok_iff :
    g.preamble = .ok text ↔ ∃ setup installs imports,
      g.templates.category "setup" = .ok setup ∧ g.PackageLines "installs" installs ∧
        g.PackageLines "imports" imports ∧
        sectionText (setup.map (·.text) ++ installs ++ imports) = text := by
  unfold preamble PackageLines
  simp only [Outcome.bind_eq_ok_iff, Outcome.mapM_eq_ok_iff, Outcome.pure_eq_ok_iff]
  constructor
  · rintro ⟨setup, hsetup, installs, hinstalls, imports, himports, rfl⟩
    exact ⟨setup, installs, imports, hsetup, hinstalls, himports, rfl⟩
  · rintro ⟨setup, installs, imports, hsetup, hinstalls, himports, rfl⟩
    exact ⟨setup, hsetup, installs, hinstalls, imports, himports, rfl⟩

/-! ## Lines -/

/-- A text that can be told from the empty line that ends a section. -/
def IsLine (line : String) : Prop :=
  line.toList ≠ [] ∧ '\n' ∉ line.toList

theorem toList_sectionText (lines : List String) :
    (sectionText lines).toList = lines.flatMap (·.toList ++ ['\n']) ++ ['\n'] := by
  simp [sectionText, String.toList_join, List.flatMap_map]

theorem toList_sectionText_cons (line : String) (lines : List String) :
    (sectionText (line :: lines)).toList = line.toList ++ '\n' :: (sectionText lines).toList := by
  simp [toList_sectionText]

/-- A section that starts with a line does not start with the empty one. -/
theorem sectionText_cons_ne {line : String} (h : IsLine line) (lines : List String)
    (x y : List Char) :
    (sectionText (line :: lines)).toList ++ x ≠ (sectionText []).toList ++ y := by
  obtain ⟨hne, hline⟩ := h
  obtain ⟨c, cs, hcs⟩ := List.exists_cons_of_ne_nil hne
  rw [toList_sectionText_cons, toList_sectionText, hcs]
  intro heq
  have hc : c = '\n' := List.head_eq_of_cons_eq heq
  exact hline (by simp [hcs, hc])

/-- **A section tells its lines**, whatever follows it. -/
theorem sectionText_append_inj {lines others : List String} (h : ∀ line ∈ lines, IsLine line)
    (hothers : ∀ line ∈ others, IsLine line) {x y : List Char}
    (heq : (sectionText lines).toList ++ x = (sectionText others).toList ++ y) :
    lines = others ∧ x = y := by
  induction lines generalizing others with
  | nil =>
    cases others with
    | nil => exact ⟨rfl, List.append_cancel_left heq⟩
    | cons other others =>
      exact absurd heq.symm (sectionText_cons_ne (hothers other (by simp)) others y x)
  | cons line lines ih =>
    cases others with
    | nil => exact absurd heq (sectionText_cons_ne (h line (by simp)) lines x y)
    | cons other others =>
      rw [List.forall_mem_cons] at h hothers
      rw [toList_sectionText_cons, toList_sectionText_cons, List.append_assoc, List.append_assoc,
        List.cons_append, List.cons_append] at heq
      obtain ⟨hfirst, hrest⟩ := Text.append_cons_inj h.1.2 hothers.1.2 heq
      obtain ⟨rfl, hxy⟩ := ih h.2 hothers.2 hrest
      exact ⟨by rw [String.toList_inj.mp hfirst], hxy⟩

end FitScript.Generator
