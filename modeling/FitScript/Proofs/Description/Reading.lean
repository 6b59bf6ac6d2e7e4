import FitScript.Description.Json
import FitScript.Proofs.Json.Decoding

/-!
# Reading descriptions

A description is read from the value of a text alone.

* `RandomEntry.byValue_decoder`, `Description.byValue_decoder`: the two records are read by value.
* `Description.ofJson_eq_ok_iff`: a text is read as a description iff its value is, and the
  version is supported.
-/

namespace FitScript

open Json Outcome

namespace VariableEntry

theorem textsOf?_eq_some_iff {items : List Value} {texts : List String} :
    textsOf? items = some texts ↔ items = texts.map Value.text := by
  induction items generalizing texts with
  | nil => cases texts <;> simp [textsOf?]
  | cons item rest ih =>
    rcases item with (_ | _ | _ | _ | first) | _ | _
    case scalar.text =>
      rw [textsOf?, Option.map_eq_some_iff]
      simp only [ih]
      constructor
      · rintro ⟨others, rfl, rfl⟩
        rfl
      · intro h
        cases texts with
        | nil => simp at h
        | cons text texts =>
          simp only [List.map_cons, List.cons.injEq, Value.text, Value.scalar.injEq,
            Scalar.text.injEq] at h
          exact ⟨texts, h.2, by rw [h.1]⟩
    all_goals cases texts <;> simp [textsOf?, Value.text]

theorem byValue_decoder : decoder.ByValue :=
  Decoder.byValue_variant "VariableSpec" ofValue?

theorem decoder_tree_eq_ok_iff {v : Value} {entry : VariableEntry} :
    decoder v.tree = .ok entry ↔ ofValue? v = some entry := by
  rw [decoder, Decoder.variant_eq_ok_iff, Value.value?_tree, Option.bind_some]

end VariableEntry

theorem RandomEntry.byValue_fields : ∀ field ∈ RandomEntry.record.fields, field.ByValue := by
  simp only [record, List.forall_mem_cons, List.not_mem_nil, false_imp_iff, implies_true, and_true]
  refine ⟨?_, ?_⟩
  · exact (Field.byValue_of Decoder.byValue_text _ _).mandatory
  · exact Field.byValue_of (Decoder.byValue_list Decoder.byValue_text) _ _

theorem RandomEntry.byValue_decoder : RandomEntry.record.decoder.ByValue :=
  Record.byValue_decoder byValue_fields

namespace Description

theorem byValue_fields : ∀ field ∈ record.fields, field.ByValue := by
  have htext := Decoder.byValue_text
  simp only [record, List.forall_mem_cons, List.not_mem_nil, false_imp_iff, implies_true, and_true]
  refine ⟨?_, ?_, ?_, ?_, ?_, ?_, ?_, ?_, ?_⟩
  · exact (Field.byValue_of htext _ _).mandatory
  · exact Field.byValue_of (Decoder.byValue_optional htext) _ _
  · exact (Field.byValue_of (Decoder.byValue_optional VariableEntry.byValue_decoder) _ _).orNamed _
  · exact (Field.byValue_of (Decoder.byValue_list VariableEntry.byValue_decoder) _ _).orNamed _
  · exact Field.byValue_of (Decoder.byValue_list (Decoder.byValue_list htext)) _ _
  · exact Field.byValue_of (Decoder.byValue_list RandomEntry.byValue_decoder) _ _
  · exact Field.byValue_of (Decoder.byValue_optional htext) _ _
  · exact Field.byValue_of (Decoder.byValue_optional htext) _ _
  · exact Field.byValue_of (Decoder.byValue_optional (Decoder.byValue_named "path string")) _ _

theorem byValue_decoder : record.decoder.ByValue :=
  Record.byValue_decoder byValue_fields

theorem checkSchema_eq_ok_iff {d e : Description} :
    checkSchema d = .ok e ↔ d.schema ∈ supportedSchemas ∧ d = e := by
  unfold checkSchema
  by_cases h : d.schema ∈ supportedSchemas <;> simp [h]

/-- **A text is read as a description iff its value is**, and the version is supported. -/
theorem ofJson_eq_ok_iff {text : String} {d : Description} :
    ofJson text = .ok d ↔ d.schema ∈ supportedSchemas ∧
      ∃ v, (Document.read text.toList).value? = some v ∧ record.decoder v.tree = .ok d := by
  show (decodeText record.decoder text).mapError .document >>= checkSchema = .ok d ↔ _
  simp only [bind_eq_ok_iff, mapError_eq_ok_iff, checkSchema_eq_ok_iff,
    decodeText_eq_ok_iff byValue_decoder]
  constructor
  · rintro ⟨_, hread, hschema, rfl⟩
    exact ⟨hschema, hread⟩
  · rintro ⟨hschema, hread⟩
    exact ⟨d, hread, hschema, rfl⟩

end Description

end FitScript
