import Mathlib.Data.List.Forall2

/-!
# Letters in both cases

* `SameLetter`: characters that are the same but for the case of an ASCII letter.
* `toLower_eq_toLower_iff`: they are those with the same lower case.
* `SameButCase`: texts of such characters.
-/

namespace FitScript.Text

/-- Two characters are the same, or a letter of ASCII in both cases. -/
def SameLetter (c d : Char) : Prop :=
  c = d ∨ c.isUpper ∧ d.toNat = c.toNat + 32 ∨ d.isUpper ∧ c.toNat = d.toNat + 32

theorem isUpper_iff {c : Char} : c.isUpper ↔ 65 ≤ c.toNat ∧ c.toNat ≤ 90 := by
  show decide (65 ≤ c.val ∧ c.val ≤ 90) = true ↔ _
  rw [decide_eq_true_iff, UInt32.le_iff_toNat_le, UInt32.le_iff_toNat_le]
  rfl

theorem toNat_toLower (c : Char) :
    c.toLower.toNat = if c.isUpper then c.toNat + 32 else c.toNat := by
  have hupper : c.isUpper ↔ c.val ≥ 'A'.val ∧ c.val ≤ 'Z'.val := decide_eq_true_iff
  unfold Char.toLower
  split_ifs with h hc hc
  · have hcode := (isUpper_iff.mp hc).2
    show (c.val + ('a'.val - 'A'.val)).toNat = c.val.toNat + 32
    have hshift : ('a'.val - 'A'.val).toNat = 32 := by decide
    rw [UInt32.toNat_add, hshift, Nat.mod_eq_of_lt]
    exact Nat.lt_of_le_of_lt (Nat.add_le_add_right hcode 32) (by decide)
  · exact absurd (hupper.mpr h) hc
  · exact absurd (hupper.mp hc) h
  · rfl

/-- **Characters are the same but for their case iff their lower case is the same.** -/
theorem toLower_eq_toLower_iff {c d : Char} : c.toLower = d.toLower ↔ SameLetter c d := by
  have hcodes : c.toLower = d.toLower ↔ c.toLower.toNat = d.toLower.toNat := Char.toNat_inj.symm
  rw [hcodes, toNat_toLower, toNat_toLower, SameLetter, ← Char.toNat_inj]
  simp only [isUpper_iff]
  split_ifs <;> omega

/-- Texts that are the same but for the case of letters. -/
def SameButCase (s t : String) : Prop :=
  List.Forall₂ SameLetter s.toList t.toList

theorem map_toLower_eq_iff {s t : String} :
    s.toList.map Char.toLower = t.toList.map Char.toLower ↔ SameButCase s t := by
  rw [← List.forall₂_eq_eq_eq, List.forall₂_map_left_iff, List.forall₂_map_right_iff, SameButCase]
  simp only [toLower_eq_toLower_iff]

end FitScript.Text
