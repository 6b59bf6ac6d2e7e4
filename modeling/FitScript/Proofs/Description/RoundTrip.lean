import FitScript.Proofs.Description.Reading
import FitScript.Proofs.Json.Records
import FitScript.Text.Utf8.Lemmas

/-!
# Descriptions survive their JSON form

A description that can be written is read back as it was, with every text, list and option in it.

* `Description.Writable`: of a supported version, and with a data path that is a text.
* `VariableEntry.decoder_value`, `RandomEntry.decoder_value`: the parts are read back.
* `Description.decoder_membersWith`: the members of a description are read back.
* `Description.writable_of_ofJson`: every description that was read can be written.
* `Description.roundTrips_iff_writable`: writing and reading gives the description back iff it
  can be written; so a text that was read, written and read again is written the same.
-/

namespace FitScript

open Json Json.Record Outcome

/-! ## Parts -/

namespace VariableEntry

theorem ofValue?_value (entry : VariableEntry) : ofValue? entry.value = some entry := by
  rcases entry with name | ⟨name, _ | levels⟩
  · rfl
  · rfl
  · have hlevels : levelsOf? [("name", .text name), ("levels", .texts levels)] =
        some (some levels) := by
      have h : textsOf? (levels.map .text) = some levels := textsOf?_eq_some_iff.mpr rfl
      simp [levelsOf?, Value.texts, h]
    rw [Value.text] at hlevels
    simp [value, ofValue?, hlevels, Value.text]

/-- A written variable is read back. -/
theorem decoder_value (entry : VariableEntry) : decoder entry.value.tree = .ok entry :=
  decoder_tree_eq_ok_iff.mpr entry.ofValue?_value

theorem value_ne_null (entry : VariableEntry) : entry.value ≠ .scalar .null := by
  rcases entry with name | ⟨name, _ | levels⟩ <;> simp [value, Value.text]

theorem textual_value (depth : Nat) (entry : VariableEntry) :
    entry.value.Textual (depth + 2) := by
  rcases entry with name | ⟨name, _ | levels⟩
  · exact .text (depth + 2) name
  · exact .object (List.forall_mem_singleton.mpr (.text (depth + 1) name))
  · refine .object (List.forall_mem_cons.mpr ⟨.text (depth + 1) name, ?_⟩)
    exact List.forall_mem_singleton.mpr (Value.textual_texts depth levels)

end VariableEntry

namespace RandomEntry

/-- The parts of a random effect. -/
def parts (entry : RandomEntry) : List (String × Option Value) :=
  [("group", some (.text entry.group)), ("slopes", givenList (entry.slopes.map .text))]

theorem value_eq (entry : RandomEntry) : entry.value = .object (given entry.parts) := by
  obtain ⟨group, _ | ⟨slope, slopes⟩⟩ := entry <;> rfl

/-- A written random effect is read back. -/
theorem decoder_value (entry : RandomEntry) : record.decoder entry.value.tree = .ok entry := by
  rw [value_eq]
  refine decoder_given ?_ (by simp [parts]) ?_
  · refine .value (Decoder.text_text _) rfl rfl rfl ?_
    exact .list Decoder.text_text _ rfl rfl rfl rfl (.nil _)
  · simp [record, parts, Field.mandatory, Field.of]

theorem textual_value (depth : Nat) (entry : RandomEntry) :
    entry.value.Textual (depth + 2) := by
  rw [value_eq]
  refine textual_given (List.forall_mem_cons.mpr ⟨?_, List.forall_mem_singleton.mpr ?_⟩)
  · exact textual_of_mem_map (.text (depth + 1)) (some entry.group)
  · exact textual_of_mem_givenList (.text depth) entry.slopes

end RandomEntry

namespace Description

/-- The data path, if there is one, is a text. -/
def HasTextData (d : Description) : Prop :=
  ∀ path ∈ d.data, path.text?.isSome

/-- A description of a supported version that can be written. -/
structure Writable (d : Description) : Prop where
  schema_mem : d.schema ∈ supportedSchemas
  hasTextData : d.HasTextData

/-- The parts of a description, given the text of its data path. -/
def parts (d : Description) (data : Option String) : List (String × Option Value) :=
  [("schema", some (.text d.schema)),
   ("id", d.id.map .text),
   ("dependent", d.dependent.map VariableEntry.value),
   ("independent", some (.array (d.independent.map VariableEntry.value))),
   ("interactions", givenList (d.interactions.map .texts)),
   ("random", givenList (d.random.map RandomEntry.value)),
   ("family", d.family.map .text),
   ("link", d.link.map .text),
   ("data", data.map .text)]

theorem memberIfAny_eq (name : String) (items : List Value) :
    memberIfAny name items = ((givenList items).map (name, ·)).toList := by
  cases items <;> rfl

theorem membersWith_eq (d : Description) (data : Option String) :
    d.membersWith data = given (d.parts data) := by
  simp [membersWith, parts, given, memberIfAny_eq, memberIfSome]

/-- The members of a description are read back. -/
theorem decoder_membersWith (d : Description) (data : Option String) :
    record.decoder (Value.object (d.membersWith data)).tree =
      .ok { d with data := data.map FilePath.ofString } := by
  rw [membersWith_eq]
  refine decoder_given ?_ (by simp [parts]) ?_
  · refine .value (Decoder.text_text _) rfl rfl rfl ?_
    show Fills record _ ⟨d.schema, none, none, [], [], [], none, none, none⟩ _
    refine .option Decoder.text_text Value.text_ne_null _ rfl rfl rfl rfl ?_
    show Fills record _ ⟨d.schema, d.id, none, [], [], [], none, none, none⟩ _
    refine .option VariableEntry.decoder_value VariableEntry.value_ne_null _ rfl rfl rfl rfl ?_
    show Fills record _ ⟨d.schema, d.id, d.dependent, [], [], [], none, none, none⟩ _
    refine .value (Decoder.list_map VariableEntry.decoder_value _) rfl rfl rfl ?_
    show Fills record _ ⟨d.schema, d.id, d.dependent, d.independent, [], [], none, none, none⟩ _
    refine .list Decoder.list_texts _ rfl rfl rfl rfl ?_
    show Fills record _
      ⟨d.schema, d.id, d.dependent, d.independent, d.interactions, [], none, none, none⟩ _
    refine .list RandomEntry.decoder_value _ rfl rfl rfl rfl ?_
    show Fills record _
      ⟨d.schema, d.id, d.dependent, d.independent, d.interactions, d.random, none, none, none⟩ _
    refine .option Decoder.text_text Value.text_ne_null _ rfl rfl rfl rfl ?_
    show Fills record _
      ⟨d.schema, d.id, d.dependent, d.independent, d.interactions, d.random, d.family, none, none⟩ _
    refine .option Decoder.text_text Value.text_ne_null _ rfl rfl rfl rfl ?_
    show Fills record _ { d with data := none } _
    refine .option (Decoder.named_text "path string") Value.text_ne_null _ rfl rfl rfl rfl ?_
    exact .nil _
  · simp [record, parts, Field.mandatory, Field.of, Field.orNamed]

theorem textual_membersWith (depth : Nat) (d : Description) (data : Option String) :
    (Value.object (d.membersWith data)).Textual (depth + 4) := by
  rw [membersWith_eq]
  apply textual_given
  simp only [parts, List.forall_mem_cons, List.not_mem_nil, false_imp_iff, implies_true, and_true]
  refine ⟨?_, ?_, ?_, ?_, ?_, ?_, ?_, ?_, ?_⟩
  · exact textual_of_mem_map (.text _) (some d.schema)
  · exact textual_of_mem_map (.text _) d.id
  · exact textual_of_mem_map (VariableEntry.textual_value _) d.dependent
  · intro v hv
    obtain rfl := Option.some.inj hv
    exact textual_array_map (VariableEntry.textual_value _) d.independent
  · exact textual_of_mem_givenList (Value.textual_texts _) d.interactions
  · exact textual_of_mem_givenList (RandomEntry.textual_value _) d.random
  · exact textual_of_mem_map (.text _) d.family
  · exact textual_of_mem_map (.text _) d.link
  · exact textual_of_mem_map (.text _) data

/-! ## There and back -/

theorem toJson_eq_of_data {d : Description} {data : Option String}
    (h : d.data = data.map FilePath.ofString) :
    d.toJson = .ok (Value.object (d.membersWith data)).pretty := by
  cases data with
  | none => rw [toJson, h, Option.map_none]
  | some data =>
    have htext : (FilePath.ofString data).text? = some data := Text.Utf8.decode?_encode data
    rw [toJson, h, Option.map_some]
    simp only [htext]

theorem Writable.exists_data {d : Description} (h : d.Writable) :
    ∃ data : Option String, d.data = data.map FilePath.ofString := by
  cases hdata : d.data with
  | none => exact ⟨none, rfl⟩
  | some path =>
    obtain ⟨data, hpath⟩ := Option.isSome_iff_exists.mp (h.hasTextData path hdata)
    refine ⟨some data, congrArg some ?_⟩
    rw [FilePath.ofString, Text.Utf8.encode_of_decode? hpath]

/-- A description that can be written is read back. -/
theorem Writable.exists_toJson {d : Description} (h : d.Writable) :
    ∃ written, d.toJson = .ok written ∧ ofJson written = .ok d := by
  obtain ⟨data, hdata⟩ := h.exists_data
  refine ⟨_, toJson_eq_of_data hdata, ?_⟩
  have hread : record.decoder (Value.object (d.membersWith data)).tree = .ok d := by
    rw [decoder_membersWith, ← hdata]
  exact ofJson_eq_ok_iff.mpr
    ⟨h.schema_mem, _, value?_read_pretty (textual_membersWith 123 d data), hread⟩

theorem keeps_hasTextData : ∀ field ∈ record.fields, field.Keeps HasTextData := by
  have hdata (data : Option String) (d : Description) :
      { d with data := data.map FilePath.ofString }.HasTextData := by
    intro path hpath
    obtain ⟨s, -, rfl⟩ := Option.map_eq_some_iff.mp hpath
    exact Option.isSome_of_mem (Text.Utf8.decode?_encode s)
  simp only [record, List.forall_mem_cons, List.not_mem_nil, false_imp_iff, implies_true, and_true]
  refine ⟨Field.Keeps.mandatory ?_, ?_, Field.Keeps.orNamed ?_ _, Field.Keeps.orNamed ?_ _,
    ?_, ?_, ?_, ?_, ?_⟩
  all_goals refine Field.keeps_of ?_ _
  case refine_9 => exact fun data d _ => hdata data d
  -- the other fields do not touch the data path
  all_goals exact fun _ _ hkept => hkept

/-- Every description that was read can be written. -/
theorem writable_of_ofJson {text : String} {d : Description} (h : ofJson text = .ok d) :
    d.Writable := by
  obtain ⟨hschema, v, -, hread⟩ := ofJson_eq_ok_iff.mp h
  have hinitial : HasTextData record.initial := fun _ hpath => absurd hpath (Option.not_mem_none _)
  exact ⟨hschema, invariant_of_decoder keeps_hasTextData hinitial hread⟩

/-- **Writing and reading gives a description back iff it can be written.** So a text that is read
    and written is written the same again after it was read once more. -/
theorem roundTrips_iff_writable (d : Description) :
    ((∃ written, d.toJson = .ok written ∧ ofJson written = .ok d) ↔ d.Writable) ∧
      ∀ text, ofJson text = .ok d → ∃ written, (ofJson text).bind toJson = .ok written ∧
        ofJson written = .ok d ∧ (ofJson written).bind toJson = .ok written := by
  constructor
  · constructor
    · rintro ⟨written, -, hread⟩
      exact writable_of_ofJson hread
    · exact Writable.exists_toJson
  · intro text htext
    obtain ⟨written, hwritten, hread⟩ := (writable_of_ofJson htext).exists_toJson
    refine ⟨written, ?_, hread, ?_⟩
    · rw [htext]
      exact hwritten
    · rw [hread]
      exact hwritten

/-- Texts with quotes, a backslash and U+0000; levels that are not given, empty and given; empty
    lists inside of lists. -/
theorem roundTrips_iff_writable_escapes :
    let text :=
      "\x7b\"data\": \"\\\"\\\\\", \"schema\": \"1.0\", \"dv\": \x7b\"name\": \"y\\u0000\"\x7d, " ++
      "\"ivs\": [\x7b\"levels\": [], \"name\": \"\\ud83d\\ude00\"\x7d, " ++
      "\x7b\"name\": \"\", \"levels\": [\"\\n\"]\x7d], " ++
      "\"interactions\": [[], [\"\\t\"]], \"random\": [\x7b\"group\": \"g\"\x7d]\x7d"
    let d : Description :=
      ⟨"1.0", none, some (.detailed "y\x00" none),
       [.detailed "😀" (some []), .detailed "" (some ["\n"])], [[], ["\t"]], [⟨"g", []⟩], none, none,
       some (.ofString "\"\\")⟩
    ofJson text = .ok d ∧ ∃ written, (ofJson text).bind toJson = .ok written ∧
      ofJson written = .ok d ∧ (ofJson written).bind toJson = .ok written := by
  intro text d
  have hread : ofJson text = .ok d := by decide +kernel
  exact ⟨hread, (roundTrips_iff_writable d).2 text hread⟩

end Description

end FitScript
