import FitScript.Settings
import Mathlib.Data.List.TakeDrop
import Mathlib.Data.List.TakeWhile

/-!
# Names of files

What a plain name is, and which names scripts can have.

* `FilePath.PlainName`: a name that one entry of a directory can have; `isPlainName_iff`.
* `splitLastDot_append`, `splitLastDot_eq_some_iff`: a name is cut at its last dot.
* `ScriptOptions.isScriptName_iff`: the names of scripts are those without a slash that end in `.R`
  and have something in front of it.
-/

namespace FitScript

namespace FilePath

/-! ## Plain names -/

/-- A name that one entry of a directory can have. -/
structure PlainName (name : List UInt8) : Prop where
  ne_nil : name ≠ []
  slash : FilePath.slash ∉ name
  ne_dot : name ≠ [dot]
  ne_parent : name ≠ [dot, dot]

theorem PlainName.head?_ne {name : List UInt8} (h : PlainName name) :
    name.head? ≠ some FilePath.slash :=
  fun hhead => h.slash (List.mem_of_head? hhead)

theorem PlainName.getLast?_ne {name : List UInt8} (h : PlainName name) :
    name.getLast? ≠ some FilePath.slash :=
  fun hlast => h.slash (List.mem_of_getLast? hlast)

/-- The path that is a plain name has this name and no other. -/
theorem PlainName.fileName? {name : List UInt8} (h : PlainName name) :
    fileName? ⟨name⟩ = some name := by
  have hnames : names ⟨name⟩ = [name] := by
    rw [names, Text.separate_of_notMem h.slash]
    simp [h.ne_nil, h.ne_dot]
  rw [FilePath.fileName?, hnames]
  exact if_neg h.ne_parent

theorem isPlainName_iff {path : FilePath} : path.isPlainName ↔ PlainName path.bytes := by
  rw [isPlainName, beq_iff_eq]
  constructor
  · intro h
    unfold fileName? at h
    split at h
    · cases h
    next name hlast =>
      split_ifs at h with hparent
      obtain rfl := Option.some.inj h
      have hmem := List.mem_of_getLast? hlast
      rw [names, List.mem_filter, decide_eq_true_iff] at hmem
      exact ⟨hmem.2.1, Text.notMem_of_mem_separate hmem.1, hmem.2.2, hparent⟩
  · exact fun h => h.fileName?

/-! ## Extensions -/

/-- A name is cut at its last dot. -/
theorem splitLastDot_append {before after : List UInt8} (h : dot ∉ after) :
    splitLastDot (before ++ dot :: after) = some (before, after) := by
  have hpass : ∀ b ∈ after.reverse, decide (b ≠ dot) = true := by
    intro b hb
    exact decide_eq_true fun hdot => h (hdot ▸ List.mem_reverse.mp hb)
  rw [splitLastDot, List.span_eq_takeWhile_dropWhile, List.reverse_append, List.reverse_cons,
    List.append_assoc, List.singleton_append, List.takeWhile_append_of_pos hpass,
    List.dropWhile_append_of_pos hpass]
  simp

theorem splitLastDot_eq_some_iff {name before after : List UInt8} :
    splitLastDot name = some (before, after) ↔ name = before ++ dot :: after ∧ dot ∉ after := by
  constructor
  · intro h
    by_cases hdot : dot ∈ name.reverse
    · -- the last dot is the first one from behind
      obtain ⟨back, front, hreverse, hback⟩ := List.eq_append_cons_of_mem hdot
      have hname : name = front.reverse ++ dot :: back.reverse := by
        rw [← List.reverse_inj, hreverse]
        simp
      have hafter : dot ∉ back.reverse := fun hmem => hback (List.mem_reverse.mp hmem)
      rw [hname, splitLastDot_append hafter, Option.some.injEq, Prod.mk.injEq] at h
      obtain ⟨rfl, rfl⟩ := h
      exact ⟨hname, hafter⟩
    · have hpass : ∀ b ∈ name.reverse, decide (b ≠ dot) = true :=
        fun b hb => decide_eq_true fun heq => hdot (heq ▸ hb)
      rw [splitLastDot, List.span_eq_takeWhile_dropWhile, List.dropWhile_eq_nil_iff.mpr hpass] at h
      cases h
  · rintro ⟨rfl, hafter⟩
    exact splitLastDot_append hafter

/-- The extension of a path is what stands behind the last dot of its last name. -/
theorem extension?_eq_some_iff_of_fileName? {path : FilePath} {name extension : List UInt8}
    (h : path.fileName? = some name) :
    path.extension? = some extension ↔
      ∃ before, before ≠ [] ∧ name = before ++ dot :: extension ∧ dot ∉ extension := by
  rw [extension?, h, Option.bind_some]
  constructor
  · intro hextension
    split at hextension
    · cases hextension
    next before after hcut =>
      split_ifs at hextension with hbefore
      obtain rfl := Option.some.inj hextension
      exact ⟨before, hbefore, splitLastDot_eq_some_iff.mp hcut⟩
  · rintro ⟨before, hbefore, hcut⟩
    rw [splitLastDot_eq_some_iff.mpr hcut]
    exact if_neg hbefore

theorem extension?_eq_some_iff {name : List UInt8} (h : PlainName name) {extension : List UInt8} :
    extension? ⟨name⟩ = some extension ↔
      ∃ before, before ≠ [] ∧ name = before ++ dot :: extension ∧ dot ∉ extension :=
  extension?_eq_some_iff_of_fileName? h.fileName?

end FilePath

namespace ScriptOptions

/-- The byte `R`. -/
def letterR : UInt8 := 0x52

/-- A name without a slash that ends in `.R` is plain. -/
theorem plainName_of_stem {name stem : List UInt8} (hslash : FilePath.slash ∉ name)
    (hname : name = stem ++ [FilePath.dot, letterR]) : FilePath.PlainName name := by
  have hlast : name.getLast? = some letterR := by
    rw [hname]
    simp
  refine ⟨?_, hslash, ?_, ?_⟩
  · rintro rfl
    cases hlast
  · rintro rfl
    exact absurd hlast (by decide)
  · rintro rfl
    exact absurd hlast (by decide)

/-- **The names of scripts** are those without a slash that end in `.R` and have something in front
    of it. -/
theorem isScriptName_iff {name : String} : isScriptName name ↔
    FilePath.slash ∉ (FilePath.ofString name).bytes ∧
      ∃ stem, stem ≠ [] ∧
        (FilePath.ofString name).bytes = stem ++ [FilePath.dot, letterR] := by
  have hR : (FilePath.ofString "R").bytes = [letterR] := by decide
  have hdot : FilePath.dot ∉ [letterR] := by decide
  rw [isScriptName, Bool.and_eq_true, FilePath.isPlainName_iff, beq_iff_eq, hR]
  constructor
  · rintro ⟨hplain, hextension⟩
    obtain ⟨stem, hstem, hname, -⟩ := (FilePath.extension?_eq_some_iff hplain).mp hextension
    exact ⟨hplain.slash, stem, hstem, hname⟩
  · rintro ⟨hslash, stem, hstem, hname⟩
    have hplain := plainName_of_stem hslash hname
    exact ⟨hplain, (FilePath.extension?_eq_some_iff hplain).mpr ⟨stem, hstem, hname, hdot⟩⟩

/-- Options that pass their check have a file name of a script. -/
theorem isScriptName_of_check {options : ScriptOptions} (h : options.check = .ok ()) :
    isScriptName options.fileName := by
  unfold check at h
  split_ifs at h with hdata hmodel hplaceholder hname
  simpa using hname

end ScriptOptions

end FitScript
