import FitScript.Proofs.Validation.Checks

/-!
# Violations are present

What a reported violation says of a description and its convention.

* `Violation.Present`: a violation is there, with the names and terms that it carries.
* `Check.FirstFails.present`: the first check that fails reports what is there.
* `present_of_ofDescription_eq_error`: so does validation, and nothing with a violation is accepted.
-/

namespace FitScript

namespace Description

/-- The names that a description gives in a field. -/
def namesIn (d : Description) : String → List String
  | "dependent" => d.dependent.toList.map (·.name)
  | "independent" => d.predictors
  | "random" => d.random.map (·.group)
  | _ => []

/-- A variable of that name has these levels. -/
def HasLevels (d : Description) (name : String) (levels : List String) : Prop :=
  ∃ entry ∈ d.entries, entry.name = name ∧ entry.levels = some levels

/-- An interaction of that name, and those in front of it. -/
def HasInteraction (d : Description) (joiner name : String) (earlier : List (List String))
    (term : List String) : Prop :=
  ∃ later, d.interactions = earlier ++ term :: later ∧ joiner.intercalate term = name

end Description

/-- A violation is present in a description and its convention, as its names and terms tell. -/
def Violation.Present (d : Description) (c : Convention) : Violation → Prop
  | missingDependent => d.dependent = none
  | noIndependentVariables => d.independent = []
  | invalidName field name => name ∈ d.namesIn field ∧ ¬ Name.isSyntactic name
  | duplicateVariable name => 2 ≤ d.names.count name
  | emptyLevels name => d.HasLevels name []
  | duplicateLevel name level => ∃ levels, d.HasLevels name levels ∧ 2 ≤ levels.count level
  | interactionTooShort term => term ∈ d.interactions ∧ (term.length < 2 ∨ ¬ term.Nodup)
  | undeclaredInteractionVariable name term =>
    term ∈ d.interactions ∧ name ∈ term ∧ name ∉ d.predictors
  | duplicateInteraction name =>
    ∃ earlier term, d.HasInteraction c.interactionJoiner name earlier term ∧
      ∃ t ∈ earlier, ∀ s, s ∈ t ↔ s ∈ term
  | termCollision name =>
    ∃ earlier term, d.HasInteraction c.interactionJoiner name earlier term ∧
      (name ∈ d.names ∨
        ∃ t ∈ earlier, c.interactionJoiner.intercalate t = name ∧ ¬ ∀ s, s ∈ t ↔ s ∈ term)
  | groupIsDependent group => group ∈ d.namesIn "random" ∧ group ∈ d.namesIn "dependent"
  | duplicateRandomGroup group => 2 ≤ (d.namesIn "random").count group
  | undeclaredSlope group name =>
    ∃ entry ∈ d.random, entry.group = group ∧ name ∈ entry.slopes ∧ name ∉ d.predictors
  | quasiFamilyWithRandomEffects name =>
    ∃ family, d.family.bind Family.ofName? = some family ∧ family.name = name ∧ family.isQuasi ∧
      d.random ≠ []
  | missingFamily => d.family = none
  | unsupportedFamily name => d.family = some name ∧ Family.ofName? name = none
  | unsupportedLink name => d.link = some name ∧ Link.ofName? name = none
  | incompatibleLink familyName linkName =>
    ∃ family link, d.family.bind Family.ofName? = some family ∧ family.name = familyName ∧
      d.link.bind Link.ofName? = some link ∧ link.name = linkName ∧ ¬ family.supports link
  | invalidTermSeparator separator => c.termSeparator = separator ∧ Text.trim separator ≠ "+"
  | invalidInteractionJoiner joiner =>
    c.interactionJoiner = joiner ∧ ¬ Name.isSyntactic ("a" ++ joiner ++ "b")
  | unsupportedDataExtension _ _ _ | dataPathNotText _ => False

namespace Validation

open Outcome

variable {α β : Type} {d : Description} {c : Convention} {y : VariableEntry} {v : Violation}

/-! ## Variables -/

theorem two_le_count_of_mem {earlier later : List String} {s : String} (h : s ∈ earlier) :
    2 ≤ (earlier ++ s :: later).count s := by
  have hearlier : 0 < earlier.count s := List.count_pos_iff.mpr h
  rw [List.count_append, List.count_cons_self]
  omega

/-- A text that is found repeated stands twice in the texts looked through. -/
theorem two_le_count_of_firstRepeated? {earlier texts : List String} {s : String}
    (h : firstRepeated? earlier texts = some s) : 2 ≤ (earlier ++ texts).count s := by
  induction texts generalizing earlier with
  | nil => simp [firstRepeated?] at h
  | cons t rest ih =>
    rw [firstRepeated?] at h
    split_ifs at h with hmem
    · obtain rfl := Option.some.inj h
      exact two_le_count_of_mem hmem
    · have hcount := ih h
      rwa [List.perm_middle.count_eq, ← List.cons_append]

theorem present_of_checkLevels {entry : VariableEntry} (hentry : entry ∈ d.entries)
    (h : checkLevels entry.name entry.levels = .error v) : v.Present d c := by
  match hlevels : entry.levels with
  | none =>
    rw [hlevels] at h
    cases h
  | some [] =>
    rw [hlevels] at h
    cases h
    exact ⟨entry, hentry, rfl, hlevels⟩
  | some (level :: levels) =>
    rw [hlevels, checkLevels] at h
    · split at h
      · next repeated hrepeated =>
        cases h
        exact ⟨level :: levels, ⟨entry, hentry, rfl, hlevels⟩,
          two_le_count_of_firstRepeated? hrepeated⟩
      · cases h
    · simp

theorem present_of_variableOf {role : Role} {field : String} {entry : VariableEntry}
    (hentry : entry ∈ d.entries) (hname : entry.name ∈ d.namesIn field)
    (h : variableOf role field entry = .error v) : v.Present d c := by
  unfold variableOf at h
  split_ifs at h with hsyntactic
  · exact present_of_checkLevels hentry (map_eq_error_iff.mp h)
  · cases h
    exact ⟨hname, hsyntactic⟩

theorem present_of_dependentOf (h : dependentOf d.dependent = .error v) : v.Present d c := by
  cases hy : d.dependent with
  | none =>
    rw [hy] at h
    cases h
    exact hy
  | some y =>
    rw [hy] at h
    have hentry : y ∈ d.entries := by simp [Description.entries, hy]
    have hname : y.name ∈ d.namesIn "dependent" := by simp [Description.namesIn, hy]
    exact present_of_variableOf hentry hname h

/-! ## Steps of loops -/

theorem inScope_eq_error_iff {step : Scope → List α → α → Except Violation β} {entries : List α}
    {i : Nat} : inScope d c step entries i = .error v ↔ ∃ y entry, d.dependent = some y ∧
      entries[i]? = some entry ∧
        step ⟨y.name, d.predictors, c.interactionJoiner⟩ (entries.take i) entry = .error v := by
  cases hy : d.dependent with
  | none => simp [inScope, scope?, hy]
  | some y =>
    rw [inScope_eq hy, atPosition]
    cases hentry : entries[i]? with
    | none => simp
    | some entry => simp [void_eq_error_iff]

theorem exists_step_of_inScope (hy : d.dependent = some y)
    {step : Scope → List α → α → Except Violation β} {entries : List α} {i : Nat} {entry : α}
    (hentry : entries[i]? = some entry) (h : inScope d c step entries i = .ok ()) :
    ∃ b, step ⟨y.name, d.predictors, c.interactionJoiner⟩ (entries.take i) entry = .ok b := by
  rw [inScope_eq hy, atPosition, hentry] at h
  exact void_eq_ok_iff.mp h

/-- An entry stands behind those in front of its position. -/
theorem eq_append_of_getElem? {entries : List α} {i : Nat} {entry : α}
    (h : entries[i]? = some entry) : entries = entries.take i ++ entry :: entries.drop (i + 1) := by
  obtain ⟨hi, rfl⟩ := List.getElem?_eq_some_iff.mp h
  rw [← List.drop_eq_getElem_cons hi, List.take_append_drop]

section Steps

variable (hy : d.dependent = some y)
include hy

theorem present_of_independentAfter {earlier later : List VariableEntry} {entry : VariableEntry}
    (hindependent : d.independent = earlier ++ entry :: later)
    (h : independentAfter ⟨y.name, d.predictors, c.interactionJoiner⟩ earlier entry = .error v) :
    v.Present d c := by
  unfold independentAfter at h
  have hentry : entry ∈ d.independent := by simp [hindependent]
  split_ifs at h with hmem
  · cases h
    show 2 ≤ d.names.count entry.name
    rw [names_eq_cons hy, Description.predictors, hindependent, List.map_append, List.map_cons,
      ← List.cons_append]
    exact two_le_count_of_mem hmem
  · exact present_of_variableOf (List.mem_append_right _ hentry) (List.mem_map_of_mem hentry) h

theorem present_of_interactionAfter {earlier later : List (List String)} {term : List String}
    (hinteractions : d.interactions = earlier ++ term :: later) (hnodup : ∀ t ∈ earlier, t.Nodup)
    (h : interactionAfter ⟨y.name, d.predictors, c.interactionJoiner⟩ (earlier.map Interaction.mk)
      term = .error v) : v.Present d c := by
  have hterm : term ∈ d.interactions := by simp [hinteractions]
  have hhas : d.HasInteraction c.interactionJoiner (c.interactionJoiner.intercalate term) earlier
      term := ⟨later, hinteractions, rfl⟩
  unfold interactionAfter at h
  by_cases hshort : term.length < 2 ∨ (firstRepeated? [] term).isSome
  · rw [if_pos hshort] at h
    cases h
    refine ⟨hterm, hshort.imp_right fun hrepeated hnd => ?_⟩
    rw [firstRepeated?_eq_none_iff.mpr ⟨hnd, by simp⟩] at hrepeated
    cases hrepeated
  rw [if_neg hshort] at h
  -- from here on the term has different variables, which comparing it with earlier ones needs
  simp only [not_or, Bool.not_eq_true, Option.isSome_eq_false_iff, Option.isNone_iff_eq_none,
    firstRepeated?_eq_none_iff] at hshort
  split at h
  · next name hfind =>
    cases h
    exact ⟨hterm, List.mem_of_find?_eq_some hfind, by simpa using List.find?_some hfind⟩
  simp only [Interaction.name, List.any_map, List.any_eq_true, Function.comp_apply,
    beq_iff_eq] at h
  split_ifs at h with hvariable hset hname
  · cases h
    refine ⟨earlier, term, hhas, .inl ?_⟩
    rw [names_eq_cons hy, List.mem_cons, or_comm]
    exact hvariable
  · cases h
    obtain ⟨t, ht, hperm⟩ := hset
    exact ⟨earlier, term, hhas, t, ht, (isPerm_iff_mem_iff (hnodup t ht) hshort.2.1).mp hperm⟩
  · cases h
    obtain ⟨t, ht, heq⟩ := hname
    refine ⟨earlier, term, hhas, .inr ⟨t, ht, heq, fun hsame => hset ⟨t, ht, ?_⟩⟩⟩
    exact (isPerm_iff_mem_iff (hnodup t ht) hshort.2.1).mpr hsame

theorem present_of_randomEffectAfter {earlier later : List RandomEntry} {entry : RandomEntry}
    (hrandom : d.random = earlier ++ entry :: later)
    (h : randomEffectAfter ⟨y.name, d.predictors, c.interactionJoiner⟩ (earlier.map (·.group))
      entry = .error v) : v.Present d c := by
  have hentry : entry ∈ d.random := by simp [hrandom]
  have hgroup : entry.group ∈ d.namesIn "random" := List.mem_map_of_mem hentry
  unfold randomEffectAfter at h
  split_ifs at h with hsyntactic hdependent htaken
  · cases h
    exact ⟨hgroup, by simpa using hsyntactic⟩
  · cases h
    refine ⟨hgroup, ?_⟩
    simp [Description.namesIn, hy, hdependent]
  · cases h
    show 2 ≤ (d.random.map (·.group)).count entry.group
    rw [hrandom, List.map_append, List.map_cons]
    exact two_le_count_of_mem htaken
  · split at h
    · next name hfind =>
      cases h
      exact ⟨entry, hentry, rfl, List.mem_of_find?_eq_some hfind,
        by simpa using List.find?_some hfind⟩
    · cases h

end Steps

/-! ## Family and link -/

theorem familyOf_eq_error {given : Option String} (h : familyOf given = .error v) :
    (given = none ∧ v = .missingFamily) ∨
      ∃ name, given = some name ∧ Family.ofName? name = none ∧ v = .unsupportedFamily name := by
  unfold familyOf at h
  split at h
  · exact .inl ⟨rfl, (Except.error.inj h).symm⟩
  · split at h
    · cases h
    · rename_i name _ hname
      exact .inr ⟨name, rfl, hname, (Except.error.inj h).symm⟩

theorem linkOf_eq_error {family : Family} {given : Option String}
    (h : linkOf family given = .error v) :
    ∃ name, given = some name ∧ Link.ofName? name = none ∧ v = .unsupportedLink name := by
  unfold linkOf at h
  split at h
  · cases h
  · split at h
    · cases h
    · rename_i name _ hname
      exact ⟨name, rfl, hname, (Except.error.inj h).symm⟩

theorem present_of_familyOf (h : familyOf d.family = .error v) : v.Present d c := by
  obtain ⟨hnone, rfl⟩ | ⟨name, hgiven, hname, rfl⟩ := familyOf_eq_error h
  · exact hnone
  · exact ⟨hgiven, hname⟩

theorem present_of_linkOf {family : Family} (h : linkOf family d.link = .error v) :
    v.Present d c := by
  obtain ⟨name, hgiven, hname, rfl⟩ := linkOf_eq_error h
  exact ⟨hgiven, hname⟩

theorem supports_canonicalLink (family : Family) : family.supports family.canonicalLink := by
  cases family <;> rfl

/-- A link that is not available was named. -/
theorem present_of_checkSupport {family : Family} {link : Link}
    (hfamily : familyOf d.family = .ok family) (hlink : linkOf family d.link = .ok link)
    (h : checkSupport family link = .error v) : v.Present d c := by
  unfold checkSupport at h
  split_ifs at h with hsupports
  cases h
  have hnamed : d.link.bind Link.ofName? = some link := by
    have hgiven := linkOf_eq_ok_iff.mp hlink
    unfold Family.givenLink at hgiven
    split at hgiven
    · cases hgiven
      exact absurd (supports_canonicalLink family) hsupports
    · next name hname =>
      rw [hname, Option.bind_some]
      exact hgiven
  exact ⟨family, link, familyOf_eq_ok_iff.mp hfamily, rfl, hnamed, rfl, hsupports⟩

theorem present_of_checkLikelihood {family : Family} (hfamily : familyOf d.family = .ok family)
    (h : checkLikelihood family (d.random.map fun entry => ⟨entry.group, entry.slopes⟩) =
      .error v) : v.Present d c := by
  unfold checkLikelihood at h
  split_ifs at h with hquasi
  cases h
  refine ⟨family, familyOf_eq_ok_iff.mp hfamily, rfl, hquasi.1, fun hrandom => hquasi.2 ?_⟩
  rw [hrandom, List.map_nil]

/-! ## Checks -/

/-- The first check that fails reports a violation that is present. -/
theorem Check.FirstFails.present {k : Check} (h : k.FirstFails d c v) : v.Present d c := by
  have hreports := h.reports
  cases k with
  | separator =>
    rw [outcome] at hreports
    split_ifs at hreports with hseparator
    cases hreports
    exact ⟨rfl, hseparator⟩
  | joiner =>
    rw [outcome] at hreports
    split_ifs at hreports with hjoiner
    cases hreports
    exact ⟨rfl, hjoiner⟩
  | dependent => exact present_of_dependentOf (void_eq_error_iff.mp hreports)
  | someIndependent =>
    rw [outcome] at hreports
    split_ifs at hreports with hempty
    cases hreports
    exact hempty
  | independent i =>
    obtain ⟨y, entry, hy, hentry, hstep⟩ := inScope_eq_error_iff.mp hreports
    exact present_of_independentAfter hy (eq_append_of_getElem? hentry) hstep
  | interaction i =>
    obtain ⟨y, term, hy, hterm, hstep⟩ := inScope_eq_error_iff.mp hreports
    -- the earlier interactions passed their checks
    have hnodup : ∀ t ∈ d.interactions.take i, t.Nodup := by
      intro t ht
      obtain ⟨j, hj, rfl⟩ := List.mem_take_iff_getElem.mp ht
      have hearlier := h.earlier (.interaction j) (.inr ⟨rfl, by simp [index]; omega⟩)
      obtain ⟨_, hok⟩ := exists_step_of_inScope hy (List.getElem?_eq_getElem _) hearlier
      exact (interactionAfter_eq_ok hok).1
    exact present_of_interactionAfter hy (eq_append_of_getElem? hterm) hnodup hstep
  | randomEffect i =>
    obtain ⟨y, entry, hy, hentry, hstep⟩ := inScope_eq_error_iff.mp hreports
    exact present_of_randomEffectAfter hy (eq_append_of_getElem? hentry) hstep
  | family => exact present_of_familyOf (void_eq_error_iff.mp hreports)
  | link =>
    rcases bind_eq_error_iff.mp hreports with hfamily | ⟨family, -, hlink⟩
    · exact present_of_familyOf hfamily
    · exact present_of_linkOf (void_eq_error_iff.mp hlink)
  | support =>
    rcases bind_eq_error_iff.mp hreports with hfamily | ⟨family, hfamily, hrest⟩
    · exact present_of_familyOf hfamily
    · rcases bind_eq_error_iff.mp hrest with hlink | ⟨link, hlink, hsupport⟩
      · exact present_of_linkOf hlink
      · exact present_of_checkSupport hfamily hlink hsupport
  | likelihood =>
    rcases bind_eq_error_iff.mp hreports with hfamily | ⟨family, hfamily, hlikelihood⟩
    · exact present_of_familyOf hfamily
    · exact present_of_checkLikelihood hfamily hlikelihood

/-! ## Valid descriptions -/

theorem not_two_le_count {texts : List String} (h : texts.Nodup) (s : String) :
    ¬ 2 ≤ texts.count s :=
  Nat.not_le_of_lt (Nat.lt_succ_of_le (List.nodup_iff_count.mp h s))

theorem isSyntactic_of_mem_namesIn (hvalid : d.Valid c) {field name : String}
    (h : name ∈ d.namesIn field) : Name.isSyntactic name := by
  unfold Description.namesIn at h
  split at h
  · obtain ⟨entry, hentry, rfl⟩ := List.mem_map.mp h
    exact (hvalid.entries entry (List.mem_append_left _ hentry)).syntactic
  · obtain ⟨entry, hentry, rfl⟩ := List.mem_map.mp h
    exact (hvalid.entries entry (List.mem_append_right _ hentry)).syntactic
  · obtain ⟨entry, hentry, rfl⟩ := List.mem_map.mp h
    exact (hvalid.random entry hentry).syntactic
  · cases h

/-- An interaction of a valid description differs from those in front of it. -/
theorem apart_of_hasInteraction (hvalid : d.Valid c) {name : String}
    {earlier : List (List String)} {term t : List String}
    (h : d.HasInteraction c.interactionJoiner name earlier term) (ht : t ∈ earlier) :
    Description.Apart c.interactionJoiner t term := by
  obtain ⟨later, hinteractions, -⟩ := h
  have hapart := hvalid.apart
  rw [hinteractions, List.pairwise_append] at hapart
  exact hapart.2.2 t ht term List.mem_cons_self

theorem fits_unique {family family' : Family} {link : Link} (h : d.Fits family link)
    (hfamily : d.family.bind Family.ofName? = some family') : family = family' := by
  have := h.named
  rw [hfamily] at this
  exact (Option.some.inj this).symm

/-- A valid description has no violation. -/
theorem not_present_of_valid (hvalid : d.Valid c) : ¬ v.Present d c := by
  obtain ⟨family, link, hfits⟩ := hvalid.fit
  intro h
  cases v with
  | missingDependent => simpa [show d.dependent = none from h] using hvalid.dependent
  | noIndependentVariables => exact hvalid.independent h
  | invalidName field name => exact h.2 (isSyntactic_of_mem_namesIn hvalid h.1)
  | duplicateVariable name => exact not_two_le_count hvalid.distinct name h
  | emptyLevels name =>
    obtain ⟨entry, hentry, -, hlevels⟩ := h
    exact ((hvalid.entries entry hentry).levels [] hlevels).1 rfl
  | duplicateLevel name level =>
    obtain ⟨levels, ⟨entry, hentry, -, hlevels⟩, hcount⟩ := h
    have hnodup := ((hvalid.entries entry hentry).levels levels hlevels).2
    exact not_two_le_count hnodup level hcount
  | interactionTooShort term =>
    have hterm := hvalid.interactions term h.1
    rcases h.2 with hshort | hrepeated
    · exact absurd hterm.two_le (by omega)
    · exact hrepeated hterm.nodup
  | undeclaredInteractionVariable name term =>
    exact h.2.2 ((hvalid.interactions term h.1).declared name h.2.1)
  | duplicateInteraction name =>
    obtain ⟨earlier, term, hhas, t, ht, hsame⟩ := h
    exact (apart_of_hasInteraction hvalid hhas ht).sets hsame
  | termCollision name =>
    obtain ⟨earlier, term, hhas, hmem | ⟨t, ht, heq, -⟩⟩ := h
    · obtain ⟨later, hinteractions, rfl⟩ := hhas
      exact (hvalid.interactions term (by simp [hinteractions])).fresh hmem
    · exact (apart_of_hasInteraction hvalid hhas ht).names (heq.trans hhas.choose_spec.2.symm)
  | groupIsDependent group =>
    obtain ⟨entry, hentry, rfl⟩ := List.mem_map.mp h.1
    obtain ⟨y, hy, heq⟩ := List.mem_map.mp h.2
    exact (hvalid.random entry hentry).not_dependent y (Option.mem_toList.mp hy) heq.symm
  | duplicateRandomGroup group => exact not_two_le_count hvalid.groups group h
  | undeclaredSlope group name =>
    obtain ⟨entry, hentry, -, hslope, hundeclared⟩ := h
    exact hundeclared ((hvalid.random entry hentry).declared name hslope)
  | quasiFamilyWithRandomEffects name =>
    obtain ⟨family', hfamily, -, hquasi, hrandom⟩ := h
    exact hrandom (hfits.likelihood (fits_unique hfits hfamily ▸ hquasi))
  | missingFamily =>
    have := hfits.named
    simp [show d.family = none from h] at this
  | unsupportedFamily name =>
    have := hfits.named
    rw [h.1, Option.bind_some, h.2] at this
    cases this
  | unsupportedLink name =>
    have := hfits.linked
    rw [h.1, Family.givenLink, h.2] at this
    cases this
  | incompatibleLink familyName linkName =>
    obtain ⟨family', link', hfamily, -, hlink, -, hunsupported⟩ := h
    obtain rfl := fits_unique hfits hfamily
    obtain ⟨given, hgiven, hname⟩ := Option.bind_eq_some_iff.mp hlink
    have := hfits.linked
    rw [hgiven, Family.givenLink, hname] at this
    cases this
    exact hunsupported hfits.supported
  | invalidTermSeparator separator =>
    obtain ⟨rfl, hseparator⟩ := h
    exact hseparator hvalid.separator
  | invalidInteractionJoiner joiner =>
    obtain ⟨rfl, hjoiner⟩ := h
    exact hjoiner hvalid.joiner
  | unsupportedDataExtension path extension expected => exact h
  | dataPathNotText path => exact h

/-- **Reported violations are present.** A description is rejected with a violation only if that
    violation is present, as its names and terms tell, and it is rejected if any is present. -/
theorem present_of_ofDescription_eq_error (d : Description) (c : Convention) :
    (∀ v, Model.ofDescription d c = .error v → v.Present d c) ∧
      ∀ v : Violation, v.Present d c → ∃ w, Model.ofDescription d c = .error w := by
  constructor
  · intro v hv
    obtain ⟨k, hk⟩ := ofDescription_eq_error_iff.mp hv
    exact hk.present
  · intro v hv
    cases hmodel : Model.ofDescription d c with
    | error w => exact ⟨w, rfl⟩
    | ok model => exact absurd hv (not_present_of_valid (ofDescription_eq_ok_iff.mp hmodel).1)

/-- Two interactions of different variables whose names are joined to the same. -/
def joinedAlike : Description :=
  { Description.empty with
    dependent := some (.bare "y")
    independent := [.bare "a", .bare "b", .bare "c", .bare "a_X_b", .bare "b_X_c"]
    interactions := [["b", "c", "a"], ["a_X_b", "c"], ["a", "b_X_c"], ["a", "z"]]
    family := some "gaussian" }

/-- The name that two interactions share is reported, and shared. -/
theorem present_of_ofDescription_eq_error_joined :
    Model.ofDescription joinedAlike .default = .error (.termCollision "a_X_b_X_c") ∧
      Violation.Present joinedAlike .default (.termCollision "a_X_b_X_c") ∧
      Violation.Present joinedAlike .default (.undeclaredInteractionVariable "z" ["a", "z"]) ∧
      ∃ w, Model.ofDescription joinedAlike .default = .error w := by
  have h : Model.ofDescription joinedAlike .default = .error (.termCollision "a_X_b_X_c") := rfl
  have hlater : Violation.Present joinedAlike .default
      (.undeclaredInteractionVariable "z" ["a", "z"]) :=
    ⟨by decide, by decide, by decide⟩
  exact ⟨h, (present_of_ofDescription_eq_error _ _).1 _ h, hlater,
    (present_of_ofDescription_eq_error _ _).2 _ hlater⟩

end Validation

end FitScript
