import FitScript.Model.Validation
import FitScript.Proofs.Text.Case
import FitScript.Proofs.Text.Cutting

/-!
# Spellings of families and links

Names of families and links are read whatever the case of their letters is, and whatever separates
their words. One word for their kind may stand behind them.

* `Spelling.Respelled`: two spellings of a text. `Respelled.bare_eq`: they have the same letters.
* `Spelling.ReadsKeys`: a reader of names that looks at their keys alone. `Family.readsKeys` and
  `Link.readsKeys`: families and links are read so.
* `Spelling.ReadsKeys.append_kind`: the word for the kind may stand behind a name;
  `ReadsKeys.append_kind_twice`: but not twice.
* `Validation.read_respelled`: all of it for families and links, with the names that are refused.
-/

namespace FitScript

namespace Spelling

/-! ## Spellings -/

/-- Two spellings of a text: letters may be in another case, and separators may be put in or left
    out anywhere. -/
inductive Respelled : List Char → List Char → Prop where
  | nil : Respelled [] []
  | letter {c d : Char} {cs ds : List Char} (same : Text.SameLetter c d) (h : Respelled cs ds) :
    Respelled (c :: cs) (d :: ds)
  | insert {d : Char} {cs ds : List Char} (separator : isSeparator d) (h : Respelled cs ds) :
    Respelled cs (d :: ds)
  | delete {c : Char} {cs ds : List Char} (separator : isSeparator c) (h : Respelled cs ds) :
    Respelled (c :: cs) ds

/-- Characters with no blanks but spaces. -/
def SpacesOnly (cs : List Char) : Prop :=
  ∀ c ∈ cs, Text.isBlank c → c = ' '

instance (cs : List Char) : Decidable (SpacesOnly cs) :=
  List.decidableBAll (fun c => Text.isBlank c → c = ' ') cs

/-- Characters without their separators, in lower case. -/
def bare (cs : List Char) : List Char :=
  (cs.filter (!isSeparator ·)).map lowerChar

section

variable {c d : Char} {cs ds : List Char}

theorem isSeparator_iff :
    isSeparator c ↔ c.toNat = 95 ∨ c.toNat = 45 ∨ c.toNat = 32 ∨ c.toNat = 46 := by
  simp only [isSeparator, Bool.or_eq_true, beq_iff_eq, ← Char.toNat_inj, or_assoc]
  rfl

theorem code_of_isBlank (h : Text.isBlank c) : c.toNat ≤ 32 ∨ 133 ≤ c.toNat := by
  simp only [Text.isBlank, Bool.or_eq_true, Bool.and_eq_true, decide_eq_true_eq, beq_iff_eq] at h
  omega

/-- The only separator that is a blank is the space. -/
theorem eq_space_of_isSeparator (h : isSeparator c) (hblank : Text.isBlank c) : c = ' ' := by
  have hcode := isSeparator_iff.mp h
  have hblank := code_of_isBlank hblank
  exact Char.toNat_inj.mp (show c.toNat = 32 by omega)

/-- A character that is not the same in two cases is an ASCII letter, and its other case is. -/
theorem code_of_sameLetter (h : Text.SameLetter c d) :
    c = d ∨ (65 ≤ c.toNat ∧ c.toNat ≤ 122 ∧ 65 ≤ d.toNat ∧ d.toNat ≤ 122 ∧
      c.toNat ≠ 95 ∧ d.toNat ≠ 95) := by
  simp only [Text.SameLetter, Text.isUpper_iff] at h
  rcases h with rfl | h | h
  · exact .inl rfl
  · exact .inr (by omega)
  · exact .inr (by omega)

theorem isSeparator_eq_of_sameLetter (h : Text.SameLetter c d) :
    isSeparator c = isSeparator d := by
  rcases code_of_sameLetter h with rfl | hcode
  · rfl
  · rw [Bool.eq_iff_iff, isSeparator_iff, isSeparator_iff]
    omega

theorem lowerChar_eq_of_sameLetter (h : Text.SameLetter c d) : lowerChar c = lowerChar d := by
  rcases code_of_sameLetter h with rfl | hcode
  · rfl
  · have hc : c ≠ '\u212A' := by
      rintro rfl
      exact absurd hcode.2.1 (by decide)
    have hd : d ≠ '\u212A' := by
      rintro rfl
      exact absurd hcode.2.2.2.1 (by decide)
    rw [lowerChar, lowerChar, if_neg hc, if_neg hd, Text.toLower_eq_toLower_iff.mpr h]

theorem bare_append (cs ds : List Char) : bare (cs ++ ds) = bare cs ++ bare ds := by
  rw [bare, List.filter_append, List.map_append, bare, bare]

/-- A separator does not count. -/
theorem bare_cons_of_isSeparator (h : isSeparator c) : bare (c :: cs) = bare cs := by
  rw [bare, List.filter_cons_of_neg (by simp [h]), bare]

/-- **Two spellings have the same letters.** -/
theorem Respelled.bare_eq (h : Respelled cs ds) : bare cs = bare ds := by
  induction h with
  | nil => rfl
  | @letter c d cs ds hsame _ ih =>
    have hhead : bare [c] = bare [d] := by
      simp only [bare, List.filter_cons, isSeparator_eq_of_sameLetter hsame]
      split_ifs
      · simp [lowerChar_eq_of_sameLetter hsame]
      · rfl
    rw [← List.singleton_append, bare_append, hhead, ih, ← bare_append, List.singleton_append]
  | insert hd _ ih => rw [bare_cons_of_isSeparator hd, ih]
  | delete hc _ ih => rw [bare_cons_of_isSeparator hc, ih]

/-- Another spelling has no other blanks. -/
theorem Respelled.spacesOnly (h : Respelled cs ds) (hcs : SpacesOnly cs) : SpacesOnly ds := by
  induction h with
  | nil => exact hcs
  | @letter c d cs ds hsame _ ih =>
    obtain ⟨hc, hcs⟩ := List.forall_mem_cons.mp hcs
    refine List.forall_mem_cons.mpr ⟨fun hblank => ?_, ih hcs⟩
    rcases code_of_sameLetter hsame with rfl | hcode
    · exact hc hblank
    · have := code_of_isBlank hblank
      omega
  | insert hd _ ih =>
    exact List.forall_mem_cons.mpr ⟨eq_space_of_isSeparator hd, ih hcs⟩
  | delete _ _ ih => exact ih (List.forall_mem_cons.mp hcs).2

theorem SpacesOnly.append (hcs : SpacesOnly cs) (hds : SpacesOnly ds) : SpacesOnly (cs ++ ds) :=
  List.forall_mem_append.mpr ⟨hcs, hds⟩

theorem SpacesOnly.dropBlanks (h : SpacesOnly cs) : SpacesOnly (Text.dropBlanks cs) :=
  fun c hc => h c ((List.dropWhile_sublist _).mem hc)

/-- Blanks that are dropped at the start are separators if they are spaces. -/
theorem bare_dropBlanks (h : SpacesOnly cs) : bare (Text.dropBlanks cs) = bare cs := by
  induction cs with
  | nil => rfl
  | cons c cs ih =>
    obtain ⟨hc, hcs⟩ := List.forall_mem_cons.mp h
    rw [Text.dropBlanks, List.dropWhile_cons]
    split_ifs with hblank
    · have hspace : isSeparator c := by
        rw [hc hblank]
        decide
      rw [bare_cons_of_isSeparator hspace]
      exact ih hcs
    · rfl

theorem bare_reverse (cs : List Char) : bare cs.reverse = (bare cs).reverse := by
  rw [bare, List.filter_reverse, List.map_reverse, bare]

/-- Of a text without blanks other than spaces all letters count. -/
theorem letters_eq_bare {s : String} (h : SpacesOnly s.toList) : letters s = bare s.toList := by
  have hreverse : SpacesOnly (Text.dropBlanks s.toList).reverse :=
    fun c hc => h.dropBlanks c (List.mem_reverse.mp hc)
  -- only spaces are cut off, and these are separators
  show bare (Text.dropEndBlanks (Text.dropBlanks s.toList)) = _
  rw [Text.dropEndBlanks, bare_reverse, bare_dropBlanks hreverse, bare_reverse,
    List.reverse_reverse, bare_dropBlanks h]

end

/-! ## Words for kinds -/

/-- A word for a kind of names, as it stands in keys: without separators, and in lower case. -/
structure IsKind (kind : String) : Prop where
  bare_eq : bare kind.toList = kind.toList
  spacesOnly : SpacesOnly kind.toList

theorem isKind_family : IsKind "family" :=
  ⟨by decide, by decide⟩

theorem isKind_link : IsKind "link" :=
  ⟨by decide, by decide⟩

theorem withoutEnding_append {ending front : List Char} (h : front ≠ []) :
    withoutEnding ending (front ++ ending) = front := by
  have hkept : (front ++ ending).take ((front ++ ending).length - ending.length) = front := by
    rw [List.length_append, Nat.add_sub_cancel, List.take_left]
  rw [withoutEnding, hkept, if_pos ⟨rfl, h⟩]

/-- A reader of names of some kind that looks at their keys alone, where no key that is known ends
    in the word for the kind. -/
structure ReadsKeys {α : Type} (kind : String) (read : String → Option α) : Prop where
  congr {s t : String} : key kind s = key kind t → read s = read t
  key_ne_empty {s : String} {a : α} : read s = some a → key kind s ≠ ""
  not_ending {s : String} {a : α} : read s = some a → ¬ kind.toList <:+ (key kind s).toList

section

variable {α : Type} {kind s t w w' : String} {read : String → Option α} {a : α}

theorem letters_eq_of_respelled (hs : SpacesOnly s.toList) (h : Respelled s.toList t.toList) :
    letters s = letters t := by
  rw [letters_eq_bare hs, letters_eq_bare (h.spacesOnly hs), h.bare_eq]

theorem spacesOnly_append_kind (hkind : IsKind kind) (hs : SpacesOnly s.toList)
    (hw : Respelled kind.toList w.toList) : SpacesOnly (s ++ w).toList := by
  rw [String.toList_append]
  exact hs.append (hw.spacesOnly hkind.spacesOnly)

/-- The letters of a text with the word for a kind behind it. -/
theorem letters_append_kind (hkind : IsKind kind) (hs : SpacesOnly s.toList)
    (hw : Respelled kind.toList w.toList) : letters (s ++ w) = letters s ++ kind.toList := by
  rw [letters_eq_bare (spacesOnly_append_kind hkind hs hw), String.toList_append, bare_append,
    ← hw.bare_eq, hkind.bare_eq, letters_eq_bare hs]

namespace ReadsKeys

/-- Two spellings of a name are read alike. -/
theorem respelled (hread : ReadsKeys kind read) (hs : SpacesOnly s.toList)
    (h : Respelled s.toList t.toList) : read s = read t :=
  hread.congr (by rw [key, key, letters_eq_of_respelled hs h])

theorem letters_ne_nil (hread : ReadsKeys kind read) (h : read s = some a)
    (hkept : withoutEnding kind.toList (letters s) = letters s) : letters s ≠ [] := by
  intro hnil
  apply hread.key_ne_empty h
  rw [key, hkept, hnil]

/-- The word for the kind may stand behind a name. -/
theorem append_kind (hread : ReadsKeys kind read) (hkind : IsKind kind) (hs : SpacesOnly s.toList)
    (h : read s = some a) (hkept : withoutEnding kind.toList (letters s) = letters s)
    (hw : Respelled kind.toList w.toList) : read (s ++ w) = some a := by
  rw [← h]
  apply hread.congr
  rw [key, letters_append_kind hkind hs hw, withoutEnding_append (hread.letters_ne_nil h hkept),
    key, hkept]

/-- The word for the kind may not stand twice behind a name. -/
theorem append_kind_twice (hread : ReadsKeys kind read) (hkind : IsKind kind)
    (hs : SpacesOnly s.toList) (h : read s = some a)
    (hkept : withoutEnding kind.toList (letters s) = letters s)
    (hw : Respelled kind.toList w.toList) (hw' : Respelled kind.toList w'.toList) :
    read (s ++ w ++ w') = none := by
  have hne : letters s ++ kind.toList ≠ [] := by simp [hread.letters_ne_nil h hkept]
  have hkey : (key kind (s ++ w ++ w')).toList = letters s ++ kind.toList := by
    rw [key, String.toList_ofList,
      letters_append_kind hkind (spacesOnly_append_kind hkind hs hw) hw',
      letters_append_kind hkind hs hw, withoutEnding_append hne]
  cases htwice : read (s ++ w ++ w') with
  | none => rfl
  | some b =>
    have hending : kind.toList <:+ (key kind (s ++ w ++ w')).toList := by
      rw [hkey]
      exact List.suffix_append _ _
    exact absurd hending (hread.not_ending htwice)

end ReadsKeys

end

end Spelling

/-! ## Families and links -/

open Spelling

/-- The keys of families. -/
def Family.keys : List String :=
  ["gaussian", "normal", "binomial", "poisson", "gamma", "inversegaussian", "quasibinomial",
   "quasipoisson"]

/-- The keys of links. -/
def Link.keys : List String :=
  ["identity", "log", "logit", "probit", "cauchit", "cauchy", "cloglog", "inverse", "reciprocal",
   "sqrt", "squareroot", "1/mu^2", "inversesquared", "inversesquare"]

theorem Family.key_mem_keys {s : String} {family : Family} (h : ofName? s = some family) :
    key "family" s ∈ keys := by
  unfold ofName? at h
  split at h
  case h_9 => cases h
  all_goals
    rename_i hkey
    rw [hkey]
    decide

theorem Link.key_mem_keys {s : String} {link : Link} (h : ofName? s = some link) :
    key "link" s ∈ keys := by
  unfold ofName? at h
  split at h
  case h_15 => cases h
  all_goals
    rename_i hkey
    rw [hkey]
    decide

/-- Families are read by their keys. -/
theorem Family.readsKeys : ReadsKeys "family" Family.ofName? where
  congr h := by
    unfold ofName?
    rw [h]
  key_ne_empty h := by
    have hkeys : ∀ k ∈ keys, k ≠ "" := by decide
    exact hkeys _ (key_mem_keys h)
  not_ending h := by
    have hkeys : ∀ k ∈ keys, ¬ "family".toList <:+ k.toList := by decide
    exact hkeys _ (key_mem_keys h)

/-- Links are read by their keys. -/
theorem Link.readsKeys : ReadsKeys "link" Link.ofName? where
  congr h := by
    unfold ofName?
    rw [h]
  key_ne_empty h := by
    have hkeys : ∀ k ∈ keys, k ≠ "" := by decide
    exact hkeys _ (key_mem_keys h)
  not_ending h := by
    have hkeys : ∀ k ∈ keys, ¬ "link".toList <:+ k.toList := by decide
    exact hkeys _ (key_mem_keys h)

namespace Validation

variable {α : Type} {kind s t : String} {read : String → Option α}
  {validate : String → Except Violation α} {refusal : String → Violation}

/-- A reader of names that refuses the names it does not know, each as it was given. -/
def Refuses (read : String → Option α) (refusal : String → Violation)
    (validate : String → Except Violation α) : Prop :=
  ∀ s, validate s = (read s).elim (.error (refusal s)) .ok

/-- Two names are read as the same, or both are refused as they were given. -/
def ReadAlike (validate : String → Except Violation α) (refusal : String → Violation)
    (s t : String) : Prop :=
  (∃ a, validate s = .ok a ∧ validate t = .ok a) ∨
    validate s = .error (refusal s) ∧ validate t = .error (refusal t)

/-- A name that is read as it stands is read with one word for its kind behind it, in any spelling,
    and refused with two. -/
def TakesOneKind (kind : String) (validate : String → Except Violation α)
    (refusal : String → Violation) (s : String) : Prop :=
  ∀ a, validate s = .ok a → withoutEnding kind.toList (letters s) = letters s →
    ∀ w, Respelled kind.toList w.toList → validate (s ++ w) = .ok a ∧
      ∀ w', Respelled kind.toList w'.toList →
        validate (s ++ w ++ w') = .error (refusal (s ++ w ++ w'))

theorem refuses_familyOf :
    Refuses Family.ofName? .unsupportedFamily fun s => familyOf (some s) := by
  intro s
  unfold familyOf
  dsimp only
  split
  · next h => rw [h, Option.elim_some]
  · next h => rw [h, Option.elim_none]

theorem refuses_linkOf (family : Family) :
    Refuses Link.ofName? .unsupportedLink fun s => linkOf family (some s) := by
  intro s
  unfold linkOf
  dsimp only
  split
  · next h => rw [h, Option.elim_some]
  · next h => rw [h, Option.elim_none]

theorem Refuses.readAlike (h : Refuses read refusal validate) (heq : read s = read t) :
    ReadAlike validate refusal s t := by
  rw [ReadAlike, h s, h t, ← heq]
  cases read s with
  | none => exact .inr ⟨rfl, rfl⟩
  | some a => exact .inl ⟨a, rfl, rfl⟩

theorem Refuses.takesOneKind (h : Refuses read refusal validate) (hread : ReadsKeys kind read)
    (hkind : IsKind kind) (hs : SpacesOnly s.toList) : TakesOneKind kind validate refusal s := by
  intro a ha hkept w hw
  have hsome : read s = some a := by
    rw [h s] at ha
    cases hread : read s with
    | none => simp [hread] at ha
    | some b => simpa [hread] using ha
  refine ⟨?_, fun w' hw' => ?_⟩
  · rw [h, hread.append_kind hkind hs hsome hkept hw]
    rfl
  · rw [h, hread.append_kind_twice hkind hs hsome hkept hw hw']
    rfl

/-- **Names of families and links are read in any spelling.** Without blanks other than spaces, two
    spellings of a text are read as the same family, or both refused as they were given, and so for
    links. One word for the kind may stand behind a name that has none, in any spelling, but not
    two. -/
theorem read_respelled (hs : SpacesOnly s.toList) (h : Respelled s.toList t.toList)
    (family : Family) :
    (ReadAlike (fun s => familyOf (some s)) .unsupportedFamily s t ∧
      ReadAlike (fun s => linkOf family (some s)) .unsupportedLink s t) ∧
    TakesOneKind "family" (fun s => familyOf (some s)) .unsupportedFamily s ∧
      TakesOneKind "link" (fun s => linkOf family (some s)) .unsupportedLink s := by
  refine ⟨⟨?_, ?_⟩, ?_, ?_⟩
  · exact refuses_familyOf.readAlike (Family.readsKeys.respelled hs h)
  · exact (refuses_linkOf family).readAlike (Link.readsKeys.respelled hs h)
  · exact refuses_familyOf.takesOneKind Family.readsKeys isKind_family hs
  · exact (refuses_linkOf family).takesOneKind Link.readsKeys isKind_link hs

theorem read_respelled_log :
    (SpacesOnly "log".toList ∧ Respelled "log".toList "L-oG".toList) ∧
      linkOf .gaussian (some "L-oG") = .ok .log ∧
      linkOf .gaussian (some ("log" ++ " Link")) = .ok .log ∧
      linkOf .gaussian (some ("log" ++ " Link" ++ "link")) =
        .error (.unsupportedLink ("log" ++ " Link" ++ "link")) := by
  have hs : SpacesOnly "log".toList := by decide
  have ht : Respelled "log".toList "L-oG".toList :=
    .letter (.inr (.inr (by decide))) (.insert (by decide) (.letter (.inl rfl)
      (.letter (.inr (.inr (by decide))) .nil)))
  have hw : Respelled "link".toList " Link".toList :=
    .insert (by decide) (.letter (.inr (.inr (by decide))) (.letter (.inl rfl)
      (.letter (.inl rfl) (.letter (.inl rfl) .nil))))
  have hw' : Respelled "link".toList "link".toList :=
    .letter (.inl rfl) (.letter (.inl rfl) (.letter (.inl rfl) (.letter (.inl rfl) .nil)))
  have hlog : linkOf .gaussian (some "log") = .ok .log := by decide +kernel
  obtain ⟨⟨-, hlike⟩, -, hkind⟩ := read_respelled hs ht .gaussian
  obtain ⟨hone, htwo⟩ := hkind .log hlog (by decide +kernel) " Link" hw
  refine ⟨⟨hs, ht⟩, ?_, hone, htwo "link" hw'⟩
  obtain ⟨link, hgiven, hother⟩ | ⟨hgiven, -⟩ := hlike
  · exact hother.trans (hgiven.symm.trans hlog)
  · cases hlog.symm.trans hgiven

end Validation

end FitScript
