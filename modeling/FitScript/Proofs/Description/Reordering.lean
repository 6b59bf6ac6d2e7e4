import FitScript.Proofs.Description.Fields
import FitScript.Proofs.Json.Grammar
import FitScript.Proofs.Json.OrderFree
import Mathlib

/-!
# Order and names of members

What a description is read as depends neither on the order in which members are written nor on
which of its two names a field is given under.

* `Failure.SameKind`: failures that differ in the wording at most.
* `Description.orderFree_decoder`: a description is read in any order of members.
* `Description.ofJson_agrees_ofValue`: a text and its value are read as the same description, or
  fail alike.
* `Description.SameName`, `Description.Rearranged`: the names of a field, and members in another
  order under other names of their fields.
* `Description.ofJson_of_rearranged`: a text with rearranged members is read as the same
  description; a text that gives a field twice is not read.
-/

namespace FitScript

open Json Json.Value Outcome

/-- Failures that say the same but for the wording of what is wrong with a document. -/
inductive Failure.SameKind : Failure → Failure → Prop where
  | document (message message' : String) : SameKind (.document message) (.document message')
  | unsupportedSchema (version : String) (supported : List String) :
      SameKind (.unsupportedSchema version supported) (.unsupportedSchema version supported)

/-! ## Variables -/

namespace VariableEntry

/-- A variable has at most one name and at most one list of levels. -/
theorem length_filter_le_one {members : List (String × Value)} {entry : VariableEntry}
    (h : ofValue? (.object members) = some entry) :
    (members.filter (·.1 == "name")).length ≤ 1 ∧
      (members.filter (·.1 == "levels")).length ≤ 1 := by
  simp only [ofValue?] at h
  split at h
  next hname =>
    obtain ⟨levels, hlevels, -⟩ := Option.map_eq_some_iff.mp h
    refine ⟨by rw [hname]; simp, ?_⟩
    unfold levelsOf? at hlevels
    split at hlevels
    next heq => rw [heq]; simp
    next heq => rw [heq]; simp
    next heq => rw [heq]; simp
    next => cases hlevels
  next => cases h

theorem eq_of_perm_of_length_le_one {α : Type} {xs ys : List α} (h : xs.Perm ys)
    (hlength : xs.length ≤ 1) : xs = ys := by
  rcases xs with _ | ⟨x, _ | ⟨x', xs⟩⟩
  · exact h.nil_eq
  · exact List.singleton_perm.mp h
  · simp at hlength

/-- A variable may have the members of an object in it in another order. -/
theorem ofValue?_of_reorders {v w : Value} (hvw : v.Reorders w) {entry : VariableEntry}
    (h : ofValue? v = some entry) : ofValue? w = some entry := by
  cases hvw with
  | item => exact absurd h (by simp [ofValue?])
  | @members members others hperm =>
    obtain ⟨hname, hlevels⟩ := length_filter_le_one h
    have hname' := eq_of_perm_of_length_le_one (hperm.filter (·.1 == "name")) hname
    have hlevels' := eq_of_perm_of_length_le_one (hperm.filter (·.1 == "levels")) hlevels
    simpa only [ofValue?, levelsOf?, hname', hlevels'] using h
  | @member x y before after name hxy =>
    have hname : name ∉ fields := by
      intro hname
      obtain ⟨members, hoccurs⟩ := hxy.exists_occurs
      exact not_occurs_of_mem_fields h (by simp) hname members hoccurs
    have hfilter : (before ++ (name, x) :: after).filter (·.1 ∈ fields) =
        (before ++ (name, y) :: after).filter (·.1 ∈ fields) := by
      simp [hname]
    rw [← ofValue?_filter, ← hfilter, ofValue?_filter, h]

end VariableEntry

/-! ## Fields -/

theorem RandomEntry.orderFree_decoder : RandomEntry.record.decoder.OrderFree := by
  have htext := Decoder.orderFree_text
  refine Record.orderFree_decoder ?_ ?_
  · exact List.pairwise_pair.mpr (Field.commute_of rfl rfl fun _ _ _ => rfl)
  · simp only [record, List.forall_mem_cons, List.not_mem_nil, false_imp_iff, implies_true,
      and_true]
    refine ⟨?_, ?_⟩
    · exact (Field.orderFree_of htext _ _).mandatory
    · exact Field.orderFree_of (htext.list Decoder.byValue_text) _ _

namespace Description

theorem orderFree_fields : ∀ field ∈ record.fields, field.OrderFree := by
  have htext := Decoder.orderFree_text
  have hvariable : VariableEntry.decoder.OrderFree :=
    Decoder.orderFree_variant fun _ _ _ h => VariableEntry.ofValue?_of_reorders h
  have htexts := htext.list Decoder.byValue_text
  simp only [record, List.forall_mem_cons, List.not_mem_nil, false_imp_iff, implies_true, and_true]
  refine ⟨?_, ?_, ?_, ?_, ?_, ?_, ?_, ?_, ?_⟩
  · exact (Field.orderFree_of htext _ _).mandatory
  · exact Field.orderFree_of htext.optional _ _
  · exact (Field.orderFree_of hvariable.optional _ _).orNamed _
  · exact (Field.orderFree_of (hvariable.list VariableEntry.byValue_decoder) _ _).orNamed _
  · exact Field.orderFree_of (htexts.list (Decoder.byValue_list Decoder.byValue_text)) _ _
  · exact Field.orderFree_of (RandomEntry.orderFree_decoder.list RandomEntry.byValue_decoder) _ _
  · exact Field.orderFree_of htext.optional _ _
  · exact Field.orderFree_of htext.optional _ _
  · exact Field.orderFree_of (Decoder.orderFree_named "path string").optional _ _

theorem commute_fields : record.fields.Pairwise Field.Commute := by
  simp only [record, List.pairwise_cons, List.forall_mem_cons, List.not_mem_nil, false_imp_iff,
    implies_true, and_true, List.Pairwise.nil]
  refine ⟨⟨?_, ?_, ?_, ?_, ?_, ?_, ?_, ?_⟩, ⟨?_, ?_, ?_, ?_, ?_, ?_, ?_⟩, ⟨?_, ?_, ?_, ?_, ?_, ?_⟩,
    ⟨?_, ?_, ?_, ?_, ?_⟩, ⟨?_, ?_, ?_, ?_⟩, ⟨?_, ?_, ?_⟩, ⟨?_, ?_⟩, ?_⟩
  all_goals exact Field.commute_of rfl rfl fun _ _ _ => rfl

/-- **A description is read in any order of members.** -/
theorem orderFree_decoder : record.decoder.OrderFree :=
  Record.orderFree_decoder commute_fields orderFree_fields

/-! ## Texts and values -/

/-- A description is not read because the document is not, or because of its version. -/
theorem error_cases {read : Except String Description} {e : Failure}
    (h : (read.mapError .document).bind checkSchema = .error e) :
    (∃ message, read = .error message ∧ e = .document message) ∨
      ∃ d, read = .ok d ∧ d.schema ∉ supportedSchemas ∧
        e = .unsupportedSchema d.schema supportedSchemas := by
  cases read with
  | error message => exact .inl ⟨message, rfl, (Except.error.inj h).symm⟩
  | ok d =>
    refine .inr ⟨d, rfl, ?_⟩
    change checkSchema d = .error e at h
    unfold checkSchema at h
    split at h
    next => cases h
    next hschema => exact ⟨hschema, (Except.error.inj h).symm⟩

/-- **A text and its value are read alike**, if no object in it has two members of one name: as
    the same description, or with failures of one kind. -/
theorem ofJson_agrees_ofValue {text : String} {v : Value}
    (h : (Document.read text.toList).value? = some v) (hv : v.DistinctKeys) :
    (∀ d, ofJson text = .ok d ↔ ofValue v = .ok d) ∧
      ∀ e, ofJson text = .error e → ∃ e', ofValue v = .error e' ∧ e.SameKind e' := by
  have hread (d : Description) : decodeText record.decoder text = .ok d ↔
      decodeValue record.decoder v = .ok d :=
    decodeText_eq_ok_iff_decodeValue byValue_decoder orderFree_decoder h hv
  unfold ofJson ofValue
  cases htext : decodeText record.decoder text with
  | ok d =>
    rw [(hread d).mp htext]
    refine ⟨fun _ => .rfl, ?_⟩
    intro e he
    refine ⟨e, he, ?_⟩
    obtain ⟨_, herror, -⟩ | ⟨d, -, -, rfl⟩ := error_cases he
    · cases herror
    · exact .unsupportedSchema _ _
  | error message =>
    cases hvalue : decodeValue record.decoder v with
    | ok d => cases htext.symm.trans ((hread d).mpr hvalue)
    | error message' =>
      refine ⟨fun _ => ⟨nofun, nofun⟩, ?_⟩
      intro e he
      obtain rfl := Except.error.inj he
      exact ⟨.document message', rfl, .document message message'⟩

/-- A variable whose members are not in the order of their names. -/
theorem ofJson_agrees_ofValue_unsorted :
    let text := "\x7b\"schema\": \"1.0\", \"dv\": \x7b\"name\": \"y\", \"levels\": null\x7d\x7d"
    let v := Value.object [("schema", .text "1.0"),
      ("dv", .object [("name", .text "y"), ("levels", .scalar .null)])]
    (Document.read text.toList).value? = some v ∧ v.DistinctKeys ∧
      (∀ d, ofJson text = .ok d ↔ ofValue v = .ok d) ∧
      ∀ e, ofJson text = .error e → ∃ e', ofValue v = .error e' ∧ e.SameKind e' := by
  intro text v
  have hvalue : (Document.read text.toList).value? = some v := by cbv
  have hdistinct : v.DistinctKeys := by
    simp [v, distinctKeys_object_iff, distinctKeys_scalar, Value.text]
  exact ⟨hvalue, hdistinct, ofJson_agrees_ofValue hvalue hdistinct⟩

/-! ## Other orders and names -/

/-- The fields of a description that have two names. -/
def spellings : List (String × String) :=
  [("dependent", "dv"), ("independent", "ivs")]

/-- Two names of one field, or the same name twice. -/
def SameName (name other : String) : Prop :=
  name = other ∨ (name, other) ∈ spellings ∨ (other, name) ∈ spellings

/-- Members under other names of their fields, with the members of any objects, the whole one
    included, in another order. -/
def Rearranged (members others : List (String × Value)) : Prop :=
  ∃ renamed, List.Forall₂ (fun a b => SameName a.1 b.1 ∧ a.2 = b.2) members renamed ∧
    (Value.object renamed).Reordered (.object others)

/-- Two members give the same field. -/
def Repeats (members : List (String × Value)) : Prop :=
  ∃ name other, SameName name other ∧ [name, other].Sublist (members.map (·.1))

theorem field?_eq_of_sameName {name other : String} (h : SameName name other) :
    record.field? name = record.field? other := by
  simp only [SameName, spellings, List.mem_cons, Prod.mk.injEq, List.not_mem_nil, or_false] at h
  obtain rfl | (⟨rfl, rfl⟩ | ⟨rfl, rfl⟩) | (⟨rfl, rfl⟩ | ⟨rfl, rfl⟩) := h <;> rfl

/-- Rearranged members are read as the same description. -/
theorem decoder_of_rearranged {members others : List (String × Value)}
    (h : Rearranged members others) {d : Description}
    (hread : record.decoder (Value.object members).tree = .ok d) :
    record.decoder (Value.object others).tree = .ok d := by
  obtain ⟨renamed, hrenamed, hreordered⟩ := h
  obtain ⟨-, seen, hmembers, hrequired⟩ := Record.readObject_eq_ok_iff.mp hread
  have hfields : List.Forall₂ (fun a b => record.field? a.1 = record.field? b.1 ∧ a.2 = b.2)
      members renamed := hrenamed.imp fun _ _ h => ⟨field?_eq_of_sameName h.1, h.2⟩
  have hmembers' := (Record.readMembers_renamed hfields [] record.initial).mp hmembers
  exact (orderFree_decoder.eq_ok_iff hreordered).mp
    (Record.readObject_eq_ok_iff.mpr ⟨rfl, seen, hmembers', hrequired⟩)

theorem nested_of_rearranged {members others : List (String × Value)}
    (h : Rearranged members others) {depth : Nat} (hnested : (Value.object members).Nested depth) :
    (Value.object others).Nested depth := by
  obtain ⟨renamed, hrenamed, hreordered⟩ := h
  refine hreordered.nested ?_
  cases hnested with
  | object hnested =>
    refine .object fun member hmember => ?_
    obtain ⟨other, hother, -, heq⟩ := exists_of_mem_right hrenamed hmember
    exact heq ▸ hnested other hother

/-- No field is given twice by members that are read. -/
theorem not_repeats_of_decoder {members : List (String × Value)} {d : Description}
    (hread : record.decoder (Value.object members).tree = .ok d) : ¬ Repeats members := by
  rintro ⟨name, other, hname, hsublist⟩
  obtain ⟨-, seen, hmembers, -⟩ := Record.readObject_eq_ok_iff.mp hread
  have hpairwise := (Record.pairwise_of_readMembers hmembers).1
  have hnames : (members.map (·.1)).Pairwise (fun a b => record.field? a ≠ record.field? b) :=
    List.pairwise_map.mpr hpairwise
  exact List.pairwise_pair.mp (hnames.sublist hsublist) (field?_eq_of_sameName hname)

/-- A text is read as a description iff it spells a value that is. -/
theorem ofJson_eq_ok_iff_spells {text : String} {d : Description} :
    ofJson text = .ok d ↔ d.schema ∈ supportedSchemas ∧ ∃ v : Value, v.Spells text.toList ∧
      v.Nested greatestDepth ∧ record.decoder v.tree = .ok d := by
  simp only [ofJson_eq_ok_iff, value?_read_iff, and_assoc]

/-- A text that gives a field twice is refused. -/
theorem ofJson_of_repeats {text : String} {members : List (String × Value)}
    (hspells : (Value.object members).Spells text.toList) (hrepeats : Repeats members) :
    ∃ message, ofJson text = .error (.document message) := by
  cases hread : decodeText record.decoder text with
  | ok d =>
    obtain ⟨v, hvalue, hread⟩ := (decodeText_eq_ok_iff byValue_decoder).mp hread
    obtain rfl := (value?_read_iff.mp hvalue).1.unique hspells
    exact absurd hrepeats (not_repeats_of_decoder hread)
  | error message => exact ⟨message, by rw [ofJson, hread]; rfl⟩

/-- **Neither the order of members nor the spelling of their names nor the gaps between tokens
    matter**, and a field that is given twice is refused. Each text that is read spells a value;
    a text that spells the same members rearranged is read as the same description. -/
theorem ofJson_of_rearranged :
    (∀ (text : String) (d : Description), ofJson text = .ok d →
      ∃ v : Value, v.Spells text.toList) ∧
    (∀ (text other : String) (members others : List (String × Value)) (d : Description),
      (Value.object members).Spells text.toList → (Value.object others).Spells other.toList →
        Rearranged members others → ofJson text = .ok d → ofJson other = .ok d) ∧
    ∀ (text : String) (members : List (String × Value)),
      (Value.object members).Spells text.toList → Repeats members →
        ∃ message, ofJson text = .error (.document message) := by
  refine ⟨?_, ?_, fun text members => ofJson_of_repeats⟩
  · intro text d h
    obtain ⟨-, v, hspells, -, -⟩ := ofJson_eq_ok_iff_spells.mp h
    exact ⟨v, hspells⟩
  · intro text other members others d hmembers hothers hrearranged h
    obtain ⟨hschema, v, hspells, hnested, hread⟩ := ofJson_eq_ok_iff_spells.mp h
    obtain rfl := hspells.unique hmembers
    exact ofJson_eq_ok_iff_spells.mpr ⟨hschema, _, hothers,
      nested_of_rearranged hrearranged hnested, decoder_of_rearranged hrearranged hread⟩

/-- A text with members in another order, under other names and with other gaps. -/
theorem ofJson_of_rearranged_renamed :
    let text := "\x7b\"schema\":\"1.0\",\"dependent\":\x7b\"name\":\"y\",\"note\":42\x7d\x7d"
    let other := "\x7b \"dv\": \x7b\"note\": 42, \"name\": \"y\"\x7d,\n  \"schema\": \"1.0\" \x7d"
    let d := { empty with schema := "1.0", dependent := some (.detailed "y" none) }
    ofJson text = .ok d ∧ ofJson other = .ok d := by
  intro text other d
  let schema : String × Value := ("schema", .text "1.0")
  let name : String × Value := ("name", .text "y")
  let note : String × Value := ("note", .scalar (.int 42))
  have htext : (Document.read text.toList).value? =
      some (.object [schema, ("dependent", .object [name, note])]) := by cbv
  have hother : (Document.read other.toList).value? =
      some (.object [("dv", .object [note, name]), schema]) := by cbv
  have hread : ofJson text = .ok d := ofJson_eq_ok_iff.mpr ⟨by decide, _, htext, rfl⟩
  have hrearranged : Rearranged [schema, ("dependent", .object [name, note])]
      [("dv", .object [note, name]), schema] := by
    refine ⟨[schema, ("dv", .object [name, note])], ?_, ?_⟩
    · exact .cons ⟨.inl rfl, rfl⟩ (.cons ⟨.inr (.inl (by decide)), rfl⟩ .nil)
    · have hinside : (Value.object [name, note]).Reordered (.object [note, name]) :=
        .perm (.swap _ _ _)
      have hmembers : (Value.object [schema, ("dv", .object [name, note])]).Reordered
          (.object [schema, ("dv", .object [note, name])]) :=
        .object (.cons ⟨rfl, .refl _⟩ (.cons ⟨rfl, hinside⟩ .nil))
      exact hmembers.trans (.perm (.swap _ _ _))
  exact ⟨hread, ofJson_of_rearranged.2.1 text other _ _ d (value?_read_iff.mp htext).1
    (value?_read_iff.mp hother).1 hrearranged hread⟩

end Description

end FitScript
