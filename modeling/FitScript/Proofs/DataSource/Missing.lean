import FitScript.Proofs.Cli.Stages
import FitScript.Proofs.Model.Terms
import FitScript.Text.Utf8.Lemmas

/-!
# Columns that a data file lacks

What is reported when the header of a data file is compared with the variables of a model.

* `Header.columns_eq_ok_iff`: the columns are the fields of the header without the blanks around
  them.
* `Model.ListsAbsent`: a list has the names that a model needs and a header lacks, in the order of
  the model; a variable that is also a group stands in it twice.
* `count_columns`: how often a model needs a name.
* `missingColumns_listsAbsent`: such a list is reported, so a name is repeated in it iff the header
  lacks an independent variable that is also a group.
* `missingColumns_repeats`: this happens.
-/

namespace FitScript

/-! ## Headers -/

namespace Header

theorem textsFrom_eq_ok_iff {index : Nat} {fields : List (List UInt8)} {texts : List String} :
    textsFrom index fields = .ok texts ↔
      List.Forall₂ (fun field text => Text.Utf8.decode? field = some text) fields texts := by
  induction fields generalizing index texts with
  | nil => cases texts <;> simp [textsFrom]
  | cons field rest ih =>
    rw [textsFrom, List.forall₂_cons_left_iff]
    cases Text.Utf8.decode? field with
    | none => simp
    | some text =>
      simp only [Option.some.injEq, Outcome.map_eq_ok_iff, ih]
      constructor
      · rintro ⟨others, hrest, rfl⟩
        exact ⟨text, others, rfl, hrest, rfl⟩
      · rintro ⟨_, others, rfl, hrest, rfl⟩
        exact ⟨others, hrest, rfl⟩

/-- The columns are the fields as texts, trimmed. -/
theorem columns_eq_ok_iff {content : List UInt8} {columns : List String} :
    Header.columns content = .ok columns ↔ ∃ texts,
      List.Forall₂ (fun field text => Text.Utf8.decode? field = some text) (fields content) texts ∧
        texts.map Text.trim = columns := by
  simp only [Header.columns, Outcome.map_eq_ok_iff, textsFrom_eq_ok_iff]

end Header

/-! ## Reports -/

namespace Model

/-- A list of the names that a model needs and that no field of a header has between its blanks. It
    has them in the order of the model, and once each, but a name that is both an independent
    variable and a group twice. -/
structure ListsAbsent (model : Model) (fields missing : List String) : Prop where
  mem_iff : ∀ name, name ∈ missing ↔
    (name = model.dependent.name ∨ name ∈ model.independents.map (·.name) ∨
      name ∈ model.randomEffects.map (·.group)) ∧ ∀ field ∈ fields, Text.trim field ≠ name
  inOrder : missing.Sublist (model.dependent.name ::
    (model.independents.map (·.name) ++ model.randomEffects.map (·.group)))
  count_eq : ∀ name ∈ missing, missing.count name =
    if name ∈ model.independents.map (·.name) ∧ name ∈ model.randomEffects.map (·.group) then 2
    else 1

variable {d : Description} {c : Convention} {model : Model}

/-- A name is needed once as a variable and once as a group. -/
theorem count_columns (h : ofDescription d c = .ok model) {name : String}
    (hname : name ∈ model.columns) : model.columns.count name =
      if name ∈ model.independents.map (·.name) ∧ name ∈ model.randomEffects.map (·.group) then 2
      else 1 := by
  have hvariables : (model.dependent.name :: model.independents.map (·.name)).Nodup := by
    rw [← Validation.names_eq h]
    exact (Validation.ofDescription_eq_ok_iff.mp h).1.distinct
  have hdependent : model.dependent.name ∉ model.randomEffects.map (·.group) := by
    rw [List.mem_map]
    rintro ⟨effect, heffect, hgroup⟩
    exact Validation.group_ne_dependent h heffect hgroup
  rw [columns, ← List.cons_append] at hname ⊢
  rw [List.count_append, hvariables.count, (Validation.nodup_groups h).count]
  by_cases hgroup : name ∈ model.randomEffects.map (·.group)
  · have hne : name ≠ model.dependent.name := fun heq => hdependent (heq ▸ hgroup)
    simp only [List.mem_cons, hne, false_or, hgroup, if_true, and_true]
    split_ifs <;> rfl
  · have hvariable := (List.mem_append.mp hname).resolve_right hgroup
    rw [if_pos hvariable, if_neg hgroup, if_neg (fun hboth => hgroup hboth.2)]

theorem listsAbsent_missingColumns (h : ofDescription d c = .ok model) (fields : List String) :
    model.ListsAbsent fields (model.missingColumns (fields.map Text.trim)) := by
  refine ⟨fun name => ?_, List.filter_sublist, fun name hname => ?_⟩
  · have hfield : name ∉ fields.map Text.trim ↔ ∀ field ∈ fields, Text.trim field ≠ name := by
      simp only [List.mem_map, not_exists, not_and]
    rw [missingColumns, List.mem_filter, columns, List.mem_cons, List.mem_append,
      decide_eq_true_iff, hfield]
  · obtain ⟨hneeded, habsent⟩ := List.mem_filter.mp hname
    have hcount : (model.missingColumns (fields.map Text.trim)).count name =
        model.columns.count name := List.count_filter habsent
    rw [hcount, count_columns h hneeded]

/-- A report repeats a name iff the header lacks an independent variable that is also a group. -/
theorem ListsAbsent.nodup_iff {fields missing : List String}
    (h : model.ListsAbsent fields missing) :
    missing.Nodup ↔ ∀ name ∈ model.independents.map (·.name),
      name ∈ model.randomEffects.map (·.group) → ∃ field ∈ fields, Text.trim field = name := by
  rw [List.nodup_iff_count_le_one]
  constructor
  · intro hcount name hindependent hgroup
    by_contra habsent
    have hmem : name ∈ missing :=
      (h.mem_iff name).mpr ⟨.inr (.inl hindependent), fun field hfield heq =>
        habsent ⟨field, hfield, heq⟩⟩
    have htwice := h.count_eq name hmem
    rw [if_pos ⟨hindependent, hgroup⟩] at htwice
    have honce := hcount name
    omega
  · intro hfound name
    by_cases hmem : name ∈ missing
    · have honce : ¬ (name ∈ model.independents.map (·.name) ∧
          name ∈ model.randomEffects.map (·.group)) := by
        rintro ⟨hindependent, hgroup⟩
        obtain ⟨field, hfield, heq⟩ := hfound name hindependent hgroup
        exact ((h.mem_iff name).mp hmem).2 field hfield heq
      exact Nat.le_of_eq (by rw [h.count_eq name hmem, if_neg honce])
    · rw [List.count_eq_zero.mpr hmem]
      exact Nat.zero_le 1

/-- **What a data file lacks is reported.** For a validated model and a file whose header can be
    read, the report has exactly the names of variables and groups that are no field of the header,
    in the order of the model. No name is repeated in it iff the header has every independent
    variable that is also a group. -/
theorem missingColumns_listsAbsent (h : ofDescription d c = .ok model) (machine : Machine)
    (refusals : Refusals) (state : MachineState) (source : DataSource) {content : List UInt8}
    {fields : List String} (hread : refusals.read state.files source.path = .ok content)
    (hfields : List.Forall₂ (fun field text => Text.Utf8.decode? field = some text)
      (Header.fields content) fields) :
    ∃ columns, Cli.readColumns (machine.hostWith refusals) source state = (.ok columns, state) ∧
      model.ListsAbsent fields (model.missingColumns columns) ∧
      ((model.missingColumns columns).Nodup ↔ ∀ name ∈ model.independents.map (·.name),
        name ∈ model.randomEffects.map (·.group) → ∃ field ∈ fields, Text.trim field = name) := by
  have hcolumns : Header.columns content = .ok (fields.map Text.trim) :=
    Header.columns_eq_ok_iff.mpr ⟨fields, hfields, rfl⟩
  have hlists := listsAbsent_missingColumns h fields
  refine ⟨fields.map Text.trim, ?_, hlists, hlists.nodup_iff⟩
  rw [Cli.readColumns_eq, Contents.columnsAt, hread]
  simp only [hcolumns, Except.mapError]

/-- A header with quotes and blanks. One of the two groups is not in it, and is listed twice, since
    it is an independent variable as well. -/
theorem missingColumns_listsAbsent_plots :
    let path := FilePath.ofString "d.csv"
    let content := Text.Utf8.encode "\n\"b\", plot \r\n1,2\r\n"
    let files := (FileTree.emptyAt []).addFile path content
    let fields := ["b", " plot "]
    Refusals.never.read files path = .ok content ∧
      List.Forall₂ (fun field text => Text.Utf8.decode? field = some text)
        (Header.fields content) fields ∧
      ∃ model, ofDescription plotYields ⟨" + ", "."⟩ = .ok model ∧ ∃ columns,
        Cli.readColumns (Machine.host ⟨[], [], []⟩) ⟨path⟩ ⟨files, "", ""⟩ =
          (.ok columns, ⟨files, "", ""⟩) ∧
        model.ListsAbsent fields (model.missingColumns columns) ∧
        ¬ (model.missingColumns columns).Nodup := by
  intro path content files fields
  have hread : Refusals.never.read files path = .ok content := by decide +kernel
  have htexts : Header.fields content = [Text.Utf8.encode "b", Text.Utf8.encode " plot "] := by
    decide +kernel
  have hfields : List.Forall₂ (fun field text => Text.Utf8.decode? field = some text)
      (Header.fields content) fields := by
    rw [htexts]
    exact .cons (Text.Utf8.decode?_encode "b") (.cons (Text.Utf8.decode?_encode " plot ") .nil)
  obtain ⟨model, h⟩ : ∃ model, ofDescription plotYields ⟨" + ", "."⟩ = .ok model := ⟨_, rfl⟩
  obtain ⟨columns, hcolumns, hlists, hnodup⟩ :=
    missingColumns_listsAbsent h ⟨[], [], []⟩ .never ⟨files, "", ""⟩ ⟨path⟩ hread hfields
  refine ⟨hread, hfields, model, h, columns, hcolumns, hlists, ?_⟩
  rw [hnodup]
  cases h
  decide +kernel

/-- A name is listed twice when it is both an independent variable and a group. -/
theorem missingColumns_repeats : ∃ model,
    ofDescription { Description.empty with
      dependent := some (.bare "y"), independent := [.bare "x"], random := [⟨"x", []⟩],
      family := some "gaussian" } .default = .ok model ∧
      Header.columns (Text.Utf8.encode "y\n1\n") = .ok ["y"] ∧
      model.missingColumns ["y"] = ["x", "x"] ∧ ¬ (model.missingColumns ["y"]).Nodup :=
  ⟨_, rfl, by decide +kernel, by decide, by decide⟩

end Model

end FitScript
