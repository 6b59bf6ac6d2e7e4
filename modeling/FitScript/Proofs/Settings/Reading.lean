import FitScript.Proofs.Json.Grammar
import FitScript.Proofs.Json.OrderFree
import FitScript.Settings.Json

/-!
# Reading settings

Settings are read from the value of a text, in any order of members.

* `Settings.byValue_decoder`, `Settings.orderFree_decoder`: the three records are read by value, and
  in any order.
* `Settings.check_eq_ok_iff`: settings are accepted iff their two parts are.
* `Settings.ofJson_eq_ok_iff`: a text is read as settings iff it spells a value that is, and they
  are accepted.
-/

namespace FitScript

open Json Outcome

namespace Convention

theorem byValue_decoder : record.decoder.ByValue := by
  refine Record.byValue_decoder ?_
  simp only [record, List.forall_mem_cons, List.not_mem_nil, false_imp_iff, implies_true, and_true]
  refine ⟨?_, ?_⟩
  all_goals exact Field.byValue_of Decoder.byValue_text _ _

/-- A convention is read in any order of members. -/
theorem orderFree_decoder : record.decoder.OrderFree := by
  refine Record.orderFree_decoder ?_ ?_
  · exact List.pairwise_pair.mpr (Field.commute_of rfl rfl fun _ _ _ => rfl)
  · simp only [record, List.forall_mem_cons, List.not_mem_nil, false_imp_iff, implies_true,
      and_true]
    refine ⟨?_, ?_⟩
    all_goals exact Field.orderFree_of Decoder.orderFree_text _ _

end Convention

namespace ScriptOptions

theorem byValue_decoder : record.decoder.ByValue := by
  refine Record.byValue_decoder ?_
  simp only [record, List.forall_mem_cons, List.not_mem_nil, false_imp_iff, implies_true, and_true]
  refine ⟨?_, ?_, ?_, ?_, ?_⟩
  case refine_5 => exact Field.byValue_of (Decoder.byValue_list Decoder.byValue_text) _ _
  all_goals exact Field.byValue_of Decoder.byValue_text _ _

/-- Script options are read in any order of members. -/
theorem orderFree_decoder : record.decoder.OrderFree := by
  refine Record.orderFree_decoder ?_ ?_
  · simp only [record, List.pairwise_cons, List.forall_mem_cons, List.not_mem_nil, false_imp_iff,
      implies_true, and_true, List.Pairwise.nil]
    refine ⟨⟨?_, ?_, ?_, ?_⟩, ⟨?_, ?_, ?_⟩, ⟨?_, ?_⟩, ?_⟩
    all_goals exact Field.commute_of rfl rfl fun _ _ _ => rfl
  · simp only [record, List.forall_mem_cons, List.not_mem_nil, false_imp_iff, implies_true,
      and_true]
    refine ⟨?_, ?_, ?_, ?_, ?_⟩
    case refine_5 =>
      exact Field.orderFree_of (Decoder.orderFree_text.list Decoder.byValue_text) _ _
    all_goals exact Field.orderFree_of Decoder.orderFree_text _ _

end ScriptOptions

namespace Settings

theorem byValue_decoder : record.decoder.ByValue := by
  refine Record.byValue_decoder ?_
  simp only [record, List.forall_mem_cons, List.not_mem_nil, false_imp_iff, implies_true, and_true]
  refine ⟨?_, ?_⟩
  · exact Field.byValue_of Convention.byValue_decoder _ _
  · exact Field.byValue_of ScriptOptions.byValue_decoder _ _

/-- Settings are read in any order of members. -/
theorem orderFree_decoder : record.decoder.OrderFree := by
  refine Record.orderFree_decoder ?_ ?_
  · exact List.pairwise_pair.mpr (Field.commute_of rfl rfl fun _ _ _ => rfl)
  · simp only [record, List.forall_mem_cons, List.not_mem_nil, false_imp_iff, implies_true,
      and_true]
    refine ⟨?_, ?_⟩
    · exact Field.orderFree_of Convention.orderFree_decoder _ _
    · exact Field.orderFree_of ScriptOptions.orderFree_decoder _ _

theorem check_eq_ok_iff {settings : Settings} :
    settings.check = .ok () ↔
      settings.formula.check = .ok () ∧ settings.generator.check = .ok () := by
  simp only [check, bind_eq_ok_iff, mapError_eq_ok_iff, exists_unit_iff]

/-- **A text is read as settings iff it spells a value that is**, and they keep all rules. -/
theorem ofJson_eq_ok_iff {text : String} {settings : Settings} :
    ofJson text = .ok settings ↔ settings.check = .ok () ∧ ∃ v : Value, v.Spells text.toList ∧
      v.Nested greatestDepth ∧ record.decoder v.tree = .ok settings := by
  simp only [ofJson, bind_eq_ok_iff, mapError_eq_ok_iff, exists_unit_iff, pure_eq_ok_iff,
    decodeText_eq_ok_iff byValue_decoder, value?_read_iff, and_assoc]
  constructor
  · rintro ⟨_, hread, hcheck, rfl⟩
    exact ⟨hcheck, hread⟩
  · rintro ⟨hcheck, hread⟩
    exact ⟨settings, hread, hcheck, rfl⟩

/-- A text that spells a value which is not read is a document at fault. -/
theorem exists_ofJson_eq_error {text : String} {v : Value} (hspells : v.Spells text.toList)
    (h : ∀ settings, record.decoder v.tree ≠ .ok settings) :
    ∃ message, ofJson text = .error (.document message) := by
  cases hread : decodeText record.decoder text with
  | ok settings =>
    obtain ⟨w, hvalue, hdecode⟩ := (decodeText_eq_ok_iff byValue_decoder).mp hread
    obtain rfl := (value?_read_iff.mp hvalue).1.unique hspells
    exact absurd hdecode (h settings)
  | error message => exact ⟨message, by rw [ofJson, hread]; rfl⟩

end Settings

end FitScript
