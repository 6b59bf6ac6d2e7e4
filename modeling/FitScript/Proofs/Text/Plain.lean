import FitScript.Proofs.Name.Joined

/-!
# Plain texts

Texts that every editor shows as they are: printable ASCII characters on one line.

* `IsPlain`: printable ASCII characters only. `IsPlainLine`: one line of these.
* `isPlain_of_isSyntactic`: names are plain.
* `isPlain_iff_isPaddedPlus`: a plus sign between blanks is plain iff the blanks are spaces.
-/

namespace FitScript.Text

/-- A printable character of ASCII. -/
def IsPrintable (c : Char) : Prop :=
  ' ' ≤ c ∧ c ≤ '~'

instance (c : Char) : Decidable (IsPrintable c) :=
  inferInstanceAs (Decidable (_ ∧ _))

/-- A text of printable characters. -/
def IsPlain (text : String) : Prop :=
  ∀ c ∈ text.toList, IsPrintable c

instance (text : String) : Decidable (IsPlain text) :=
  List.decidableBAll IsPrintable text.toList

/-- One line of printable characters and the line feed that ends it. -/
def IsPlainLine (text : String) : Prop :=
  ∃ line, IsPlain line ∧ text = line ++ "\n"

theorem isPrintable_iff {c : Char} : IsPrintable c ↔ 32 ≤ c.toNat ∧ c.toNat ≤ 126 :=
  Iff.rfl

theorem isPlain_append {a b : String} : IsPlain (a ++ b) ↔ IsPlain a ∧ IsPlain b := by
  unfold IsPlain
  rw [String.toList_append, List.forall_mem_append]

theorem IsPlain.append {a b : String} (ha : IsPlain a) (hb : IsPlain b) : IsPlain (a ++ b) :=
  isPlain_append.mpr ⟨ha, hb⟩

theorem newline_notMem_of_isPlain {text : String} (h : IsPlain text) : '\n' ∉ text.toList :=
  fun hmem => absurd (h _ hmem) (by decide)

theorem isPlainLine_append_newline {line : String} : IsPlainLine (line ++ "\n") ↔ IsPlain line := by
  constructor
  · rintro ⟨other, hplain, heq⟩
    have hlists := congrArg String.toList heq
    rw [String.toList_append, String.toList_append] at hlists
    rwa [String.toList_inj.mp (List.append_cancel_right hlists)]
  · intro h
    exact ⟨line, h, rfl⟩

/-- The only blank among the printable characters is the space. -/
theorem eq_space_of_isBlank {c : Char} (hblank : isBlank c) (hplain : IsPrintable c) : c = ' ' := by
  rw [isPrintable_iff] at hplain
  have hcode : c.toNat = 32 := by
    simp only [isBlank, Bool.or_eq_true, Bool.and_eq_true, decide_eq_true_eq, beq_iff_eq] at hblank
    omega
  exact Char.toNat_inj.mp hcode

theorem isPrintable_of_isNameChar {c : Char} (h : Name.isNameChar c) : IsPrintable c := by
  rw [isPrintable_iff]
  have := Name.code_of_isNameChar h
  omega

theorem isPlain_of_isSyntactic {name : String} (h : Name.isSyntactic name) : IsPlain name :=
  fun c hc => isPrintable_of_isNameChar (Name.isNameChar_of_isSyntactic h c hc)

/-! ## Padding -/

/-- A plus sign padded with spaces. -/
def IsPaddedPlus (separator : String) : Prop :=
  ∃ m n, separator.toList = List.replicate m ' ' ++ '+' :: List.replicate n ' '

/-- A plus sign between blanks is plain iff the blanks are spaces. -/
theorem isPlain_iff_isPaddedPlus {separator : String} (h : trim separator = "+") :
    IsPlain separator ↔ IsPaddedPlus separator := by
  obtain ⟨front, back, hfront, hback, hseparator⟩ := exists_of_trim_eq h
  have hplus : "+".toList ++ back = '+' :: back := rfl
  rw [hplus] at hseparator
  unfold IsPlain
  constructor
  · rw [hseparator, List.forall_mem_append, List.forall_mem_cons]
    rintro ⟨hplain, -, hplain'⟩
    have hfrontSpaces : front = List.replicate front.length ' ' :=
      List.eq_replicate_of_mem fun c hc => eq_space_of_isBlank (hfront c hc) (hplain c hc)
    have hbackSpaces : back = List.replicate back.length ' ' :=
      List.eq_replicate_of_mem fun c hc => eq_space_of_isBlank (hback c hc) (hplain' c hc)
    refine ⟨front.length, back.length, ?_⟩
    rw [hseparator, ← hfrontSpaces, ← hbackSpaces]
  · rintro ⟨m, n, hspaces⟩ c hc
    rw [hspaces, List.mem_append, List.mem_cons] at hc
    rcases hc with hc | rfl | hc
    · rw [List.eq_of_mem_replicate hc]
      decide
    · decide
    · rw [List.eq_of_mem_replicate hc]
      decide

end FitScript.Text
