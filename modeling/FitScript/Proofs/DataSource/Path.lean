import FitScript.DataSource
import FitScript.Proofs.FilePath.LastName
import FitScript.Proofs.Text.Case
import FitScript.Text.Utf8.Lemmas

/-!
# Paths of data files

Which paths are accepted as data files, and what is wrong with the others.

* `FilePath.exists_encode_of_hasExtension`: the extension of a path that is a text is a text.
* `DataSource.Judged`: the three things that can come of a path. `judged_ofPath`: one of them does.
* `DataSource.ofPath_eq_iff_judged`: and no other.
* `eq_of_ofPath`, `exists_text_of_ofPath`: an accepted path is kept and is a text, and its literal
  is the one of that text.
-/

namespace FitScript

open Text.Utf8

namespace FilePath

variable {path : FilePath}

/-! ## Paths that are texts -/

theorem text?_eq_some_iff {text : String} : path.text? = some text ↔ path = .ofString text := by
  constructor
  · intro h
    rw [ofString, encode_of_decode? h]
  · rintro rfl
    exact decode?_encode text

theorem text?_eq_none_iff : path.text? = none ↔ ∀ text, path ≠ .ofString text := by
  simp only [Option.eq_none_iff_forall_ne_some, Ne, text?_eq_some_iff]

theorem Trailing.eq_nil_or_cons {back : List UInt8} (h : Trailing back) :
    back = [] ∨ ∃ rest, back = slash :: rest := by
  cases h with
  | nil => exact .inl rfl
  | empty => exact .inr ⟨_, rfl⟩
  | here => exact .inr ⟨_, rfl⟩

/-- The extension of a path that is a text is a text: the bytes around it are characters. -/
theorem exists_encode_of_hasExtension {text : String} {extension : List UInt8}
    (h : HasExtension (.ofString text) extension) : ∃ found, encode found = extension := by
  obtain ⟨stem, ⟨-, front, back, hbytes, -, hback⟩, -, -⟩ := h
  have hcut : encode text = (front ++ stem) ++ dot :: (extension ++ back) :=
    hbytes.trans (by simp only [List.append_assoc, List.cons_append])
  obtain ⟨-, behind, -, hbehind⟩ := exists_encode_of_append_cons (by decide) hcut
  rcases hback.eq_nil_or_cons with rfl | ⟨rest, rfl⟩
  · exact ⟨behind, by rw [hbehind, List.append_nil]⟩
  · obtain ⟨found, -, hfound, -⟩ := exists_encode_of_append_cons (by decide) hbehind
    exact ⟨found, hfound⟩

end FilePath

namespace DataSource

variable {path : FilePath} {source : DataSource}

/-! ## What comes of a path -/

/-- What comes of a path. One that is no text is refused as such. One that is a text is accepted as
    it is if its extension is `csv` in any case, and otherwise refused for its extension, which is
    reported if there is one. -/
inductive Judged (path : FilePath) : Except Violation DataSource → Prop where
  | notText (noText : ∀ text, path ≠ .ofString text) :
    Judged path (.error (.dataPathNotText path.quoted))
  | accepted {text found : String} (isText : path = .ofString text)
    (hasFound : path.HasExtension (encode found)) (isCsv : Text.SameButCase found "csv") :
    Judged path (.ok ⟨path⟩)
  | refused {text : String} {found : Option String} (isText : path = .ofString text)
    (found_iff : ∀ extension, found.map encode = some extension ↔ path.HasExtension extension)
    (notCsv : ∀ s ∈ found, ¬ Text.SameButCase s "csv") :
    Judged path (.error (.unsupportedDataExtension text found "csv"))

theorem lowered_eq_iff {found : String} :
    lowered found = lowered extension ↔ Text.SameButCase found "csv" :=
  Text.map_toLower_eq_iff

/-- The extension of a text as a text. -/
theorem extension?_bind_decode? {found : Option String}
    (h : ∀ extension, found.map encode = some extension ↔ path.HasExtension extension) :
    path.extension?.bind decode? = found := by
  cases found with
  | none =>
    have hnone : path.extension? = none := by
      rw [Option.eq_none_iff_forall_ne_some]
      intro extension hextension
      cases (h extension).mpr (FilePath.extension?_eq_some_iff_hasExtension.mp hextension)
    rw [hnone, Option.bind_none]
  | some s =>
    have hsome := FilePath.extension?_eq_some_iff_hasExtension.mpr ((h (encode s)).mp rfl)
    rw [hsome, Option.bind_some, decode?_encode]

theorem exists_found {text : String} (h : path = .ofString text) :
    ∃ found : Option String,
      ∀ extension, found.map encode = some extension ↔ path.HasExtension extension := by
  cases hextension : path.extension? with
  | none =>
    refine ⟨none, fun extension => ?_⟩
    rw [← FilePath.extension?_eq_some_iff_hasExtension, hextension]
    simp
  | some extension =>
    have hhas := FilePath.extension?_eq_some_iff_hasExtension.mp hextension
    obtain ⟨found, rfl⟩ := FilePath.exists_encode_of_hasExtension (h ▸ hhas)
    refine ⟨some found, fun other => ?_⟩
    rw [← FilePath.extension?_eq_some_iff_hasExtension, hextension]
    rfl

theorem ofPath_of_notText (h : ∀ text, path ≠ .ofString text) :
    ofPath path = .error (.dataPathNotText path.quoted) := by
  rw [ofPath, FilePath.text?_eq_none_iff.mpr h]

theorem ofPath_of_csv {text found : String} (htext : path = .ofString text)
    (hfound : path.HasExtension (encode found)) (hcsv : Text.SameButCase found "csv") :
    ofPath path = .ok ⟨path⟩ := by
  rw [ofPath, FilePath.text?_eq_some_iff.mpr htext,
    FilePath.extension?_eq_some_iff_hasExtension.mpr hfound, Option.bind_some, decode?_encode]
  exact if_pos (lowered_eq_iff.mpr hcsv)

theorem ofPath_of_notCsv {text : String} {found : Option String} (htext : path = .ofString text)
    (hfound : ∀ extension, found.map encode = some extension ↔ path.HasExtension extension)
    (hcsv : ∀ s ∈ found, ¬ Text.SameButCase s "csv") :
    ofPath path = .error (.unsupportedDataExtension text found "csv") := by
  rw [ofPath, FilePath.text?_eq_some_iff.mpr htext, extension?_bind_decode? hfound]
  cases found with
  | none => rfl
  | some s => exact if_neg fun h => hcsv s rfl (lowered_eq_iff.mp h)

/-- One of the three comes of every path. -/
theorem judged_ofPath (path : FilePath) : Judged path (ofPath path) := by
  by_cases htext : ∀ text, path ≠ .ofString text
  · rw [ofPath_of_notText htext]
    exact .notText htext
  rw [not_forall] at htext
  obtain ⟨text, htext⟩ := htext
  rw [not_not] at htext
  obtain ⟨found, hfound⟩ := exists_found htext
  by_cases hcsv : ∀ s ∈ found, ¬ Text.SameButCase s "csv"
  · rw [ofPath_of_notCsv htext hfound hcsv]
    exact .refused htext hfound hcsv
  · simp only [not_forall, not_not] at hcsv
    obtain ⟨s, rfl, hcsv⟩ := hcsv
    have hhas : path.HasExtension (encode s) := (hfound _).mp rfl
    rw [ofPath_of_csv htext hhas hcsv]
    exact .accepted htext hhas hcsv

/-- **Which paths are data files**: those that are texts, whose last name has an extension, and
    whose extension is `csv` in any case. What is wrong with any other path is told, and nothing
    else ever comes of one. -/
theorem ofPath_eq_iff_judged {result : Except Violation DataSource} :
    ofPath path = result ↔ Judged path result := by
  constructor
  · rintro rfl
    exact judged_ofPath path
  · intro h
    cases h with
    | notText htext => exact ofPath_of_notText htext
    | accepted htext hfound hcsv => exact ofPath_of_csv htext hfound hcsv
    | refused htext hfound hcsv => exact ofPath_of_notCsv htext hfound hcsv

/-- A dot that leads a name separates nothing, and what trails behind the name does not count. -/
example : ofPath (.ofString "d/..CsV//./") = .ok ⟨.ofString "d/..CsV//./"⟩ ∧
    ofPath (.ofString "d/.csv") = .error (.unsupportedDataExtension "d/.csv" none "csv") := by
  decide +kernel

/-! ## Accepted paths -/

theorem eq_of_ofPath (h : ofPath path = .ok source) : source = ⟨path⟩ := by
  have hjudged := judged_ofPath path
  rw [h] at hjudged
  cases hjudged
  rfl

/-- An accepted path is a text, and the literal of the data file holds this text. -/
theorem exists_text_of_ofPath (h : ofPath path = .ok source) :
    ∃ text, source.path.text? = some text ∧ source.literal = Literal.write text := by
  have hjudged := judged_ofPath path
  rw [h] at hjudged
  cases hjudged with
  | accepted htext =>
    have htext := FilePath.text?_eq_some_iff.mpr htext
    exact ⟨_, htext, by rw [literal, FilePath.display, decodeLossy_of_decode? htext]⟩

end DataSource

end FitScript
