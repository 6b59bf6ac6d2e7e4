import FitScript.Json.Decoder
import FitScript.Proofs.Json.Reading
import FitScript.Proofs.Outcome

/-!
# Decoding values

What a decoder accepts depends on the value of a tree alone: not on where its parts stand, and
not on how their texts were written.

* `Value.value?_tree`: a value as a tree has that value.
* `Decoder.ByValue`: a decoder that asks for the value alone. The decoders of texts, options,
  lists and variants are such decoders.
* `list_eq_ok_iff`, `variant_eq_ok_iff` and others: what is accepted, and as what.
* `Record.byValue_decoder`: so is a record whose fields are.
* `decodeText_eq_ok_iff`: what is read from a text is what is read from its value.
-/

namespace FitScript.Json

open Outcome

/-! ## Values of trees -/

namespace Tree

theorem itemValues?_eq_some_iff {items : List Tree} {values : List Value} :
    itemValues? items = some values ↔ List.Forall₂ (fun t v => t.value? = some v) items values := by
  induction items generalizing values with
  | nil => simp [itemValues?, eq_comm]
  | cons item rest ih =>
    rw [itemValues?, List.forall₂_cons_left_iff]
    simp only [Option.bind_eq_bind, Option.pure_def, Option.bind_eq_some_iff, ih,
      Option.some.injEq]
    constructor
    · rintro ⟨v, hv, vs, hvs, rfl⟩
      exact ⟨v, vs, hv, hvs, rfl⟩
    · rintro ⟨v, vs, hv, hvs, rfl⟩
      exact ⟨v, hv, vs, hvs, rfl⟩

theorem memberValues?_eq_some_iff {members : List (Key × Tree)} {values : List (String × Value)} :
    memberValues? members = some values ↔
      List.Forall₂ (fun t v => t.1.name = v.1 ∧ t.2.value? = some v.2) members values := by
  induction members generalizing values with
  | nil => simp [memberValues?, eq_comm]
  | cons member rest ih =>
    obtain ⟨key, tree⟩ := member
    rw [memberValues?, List.forall₂_cons_left_iff]
    simp only [Option.bind_eq_bind, Option.pure_def, Option.bind_eq_some_iff, ih,
      Option.some.injEq]
    constructor
    · rintro ⟨v, hv, vs, hvs, rfl⟩
      exact ⟨(key.name, v), vs, ⟨rfl, hv⟩, hvs, rfl⟩
    · rintro ⟨⟨_, v⟩, vs, ⟨rfl, hv⟩, hvs, rfl⟩
      exact ⟨v, hv, vs, hvs, rfl⟩

theorem value?_leaf (span : Span) (s : Scalar) : (leaf span s).value? = some (.scalar s) :=
  rfl

theorem value?_broken (fault : Fault) : (broken fault).value? = none :=
  rfl

theorem value?_array_iff {span : Span} {items : List Tree} {fault : Option Fault} {v : Value} :
    (array span items fault).value? = some v ↔ fault = none ∧ ∃ values,
      List.Forall₂ (fun t w => t.value? = some w) items values ∧ .array values = v := by
  cases fault with
  | some fault => simp [value?]
  | none =>
    rw [value?, Option.map_eq_some_iff]
    simp only [itemValues?_eq_some_iff, true_and]

theorem value?_object_iff {span : Span} {members : List (Key × Tree)} {fault : Option Fault}
    {v : Value} :
    (object span members fault).value? = some v ↔ fault = none ∧ ∃ values,
      List.Forall₂ (fun t w => t.1.name = w.1 ∧ t.2.value? = some w.2) members values ∧
        .object values = v := by
  cases fault with
  | some fault => simp [value?]
  | none =>
    rw [value?, Option.map_eq_some_iff]
    simp only [memberValues?_eq_some_iff, true_and]

theorem value?_eq_scalar_iff {tree : Tree} {s : Scalar} :
    tree.value? = some (.scalar s) ↔ ∃ span, tree = .leaf span s := by
  cases tree with
  | leaf span t => simp [value?_leaf]
  | array span items fault => simp [value?_array_iff]
  | object span members fault => simp [value?_object_iff]
  | broken fault => simp [value?_broken]

mutual

/-- Nothing is wrong with a tree that has a value. -/
theorem fault?_eq_none_of_value? : ∀ {t : Tree} {v : Value}, t.value? = some v → t.fault? = none
  | .leaf _ _, _, _ => rfl
  | .array _ items fault, v, h => by
    obtain ⟨rfl, values, hvalues, -⟩ := value?_array_iff.mp h
    rw [fault?, itemsFault?_eq_none hvalues, Option.none_or]
  | .object _ members fault, v, h => by
    obtain ⟨rfl, values, hvalues, -⟩ := value?_object_iff.mp h
    rw [fault?, membersFault?_eq_none hvalues, Option.none_or]
  | .broken _, v, h => by simp [value?_broken] at h

theorem itemsFault?_eq_none : ∀ {items : List Tree} {values : List Value},
    List.Forall₂ (fun t v => t.value? = some v) items values → itemsFault? items = none
  | [], _, _ => rfl
  | item :: rest, _, .cons h hrest => by
    rw [itemsFault?, fault?_eq_none_of_value? h, itemsFault?_eq_none hrest, Option.none_or]

theorem membersFault?_eq_none : ∀ {members : List (Key × Tree)} {values : List (String × Value)},
    List.Forall₂ (fun t v => t.1.name = v.1 ∧ t.2.value? = some v.2) members values →
      membersFault? members = none
  | [], _, _ => rfl
  | (_, tree) :: rest, _, .cons h hrest => by
    rw [membersFault?, fault?_eq_none_of_value? h.2, membersFault?_eq_none hrest, Option.none_or]

end

end Tree

namespace Value

mutual

/-- A value as a tree has that value. -/
theorem value?_tree : ∀ v : Value, v.tree.value? = some v
  | .scalar _ => rfl
  | .array items => by
    rw [tree, Tree.value?_array_iff]
    exact ⟨rfl, items, forall₂_itemTrees items, rfl⟩
  | .object members => by
    rw [tree, Tree.value?_object_iff]
    exact ⟨rfl, members, forall₂_memberTrees members, rfl⟩

theorem forall₂_itemTrees : ∀ items : List Value,
    List.Forall₂ (fun t v => t.value? = some v) (itemTrees items) items
  | [] => .nil
  | item :: rest => .cons item.value?_tree (forall₂_itemTrees rest)

theorem forall₂_memberTrees : ∀ members : List (String × Value),
    List.Forall₂ (fun t v => t.1.name = v.1 ∧ t.2.value? = some v.2) (memberTrees members) members
  | [] => .nil
  | (_, value) :: rest => .cons ⟨rfl, value.value?_tree⟩ (forall₂_memberTrees rest)

end

theorem memberTrees_eq_map (members : List (String × Value)) :
    memberTrees members = members.map fun member => (⟨member.1, 0⟩, member.2.tree) := by
  induction members with
  | nil => rfl
  | cons member rest ih => rw [memberTrees, ih, List.map_cons]

theorem itemTrees_eq_map (items : List Value) : itemTrees items = items.map tree := by
  induction items with
  | nil => rfl
  | cons item rest ih => rw [itemTrees, ih, List.map_cons]

end Value

/-! ## Decoders -/

theorem unlessFault_eq_ok_iff {fault : Option Fault} {u : Unit} :
    unlessFault fault = .ok u ↔ fault = none := by
  cases fault <;> simp [unlessFault]

namespace Decoder

variable {α : Type} {decode : Decoder α}

/-- A decoder that asks for the value of a tree alone. -/
def ByValue (decode : Decoder α) : Prop :=
  ∀ tree a, decode tree = .ok a ↔ ∃ v, tree.value? = some v ∧ decode v.tree = .ok a

theorem named_eq_ok_iff {expected s : String} {tree : Tree} :
    named expected tree = .ok s ↔ tree.value? = some (.text s) := by
  rw [Value.text, Tree.value?_eq_scalar_iff]
  cases tree with
  | leaf span t => cases t <;> simp [named]
  | array span items fault => simp [named]
  | object span members fault => simp [named]
  | broken fault => simp [named]

theorem byValue_named (expected : String) : (named expected).ByValue := by
  intro tree s
  simp only [named_eq_ok_iff, Value.value?_tree, Option.some.injEq, exists_eq_right]

theorem byValue_text : text.ByValue :=
  byValue_named "a string"

theorem optional_eq_ok_iff {o : Option α} {tree : Tree} :
    optional decode tree = .ok o ↔ tree.value? = some (.scalar .null) ∧ o = none ∨
      tree.value? ≠ some (.scalar .null) ∧ ∃ a, decode tree = .ok a ∧ some a = o := by
  rw [Ne, Tree.value?_eq_scalar_iff]
  rcases tree with ⟨span, _ | _ | _ | _ | _⟩ | _ | _ | _
  all_goals simp [optional, map_eq_ok_iff]
  exact eq_comm

theorem byValue_optional (h : decode.ByValue) : (optional decode).ByValue := by
  intro tree o
  simp only [optional_eq_ok_iff, Value.value?_tree, Option.some.injEq]
  constructor
  · rintro (⟨hnull, rfl⟩ | ⟨hnull, a, ha, rfl⟩)
    · exact ⟨_, hnull, .inl ⟨rfl, rfl⟩⟩
    · obtain ⟨v, hv, hdecode⟩ := (h tree a).mp ha
      exact ⟨v, hv, .inr ⟨hv ▸ hnull, a, hdecode, rfl⟩⟩
  · rintro ⟨v, hv, ⟨rfl, rfl⟩ | ⟨hnull, a, hdecode, rfl⟩⟩
    · exact .inl ⟨hv, rfl⟩
    · exact .inr ⟨hv ▸ hnull, a, (h tree a).mpr ⟨v, hv, hdecode⟩, rfl⟩

theorem list_eq_ok_iff (h : decode.ByValue) {as : List α} {tree : Tree} :
    list decode tree = .ok as ↔ ∃ items, tree.value? = some (.array items) ∧
      List.Forall₂ (fun w a => decode w.tree = .ok a) items as := by
  cases tree with
  | leaf span s => simp [list, Tree.value?_leaf]
  | object span members fault => simp [list, Tree.value?_object_iff]
  | broken fault => simp [list, Tree.value?_broken]
  | array span items fault =>
    have hitems : (fun t a => decode t = .ok a) =
        fun t a => ∃ v, t.value? = some v ∧ decode v.tree = .ok a := by
      funext t a
      exact propext (h t a)
    simp only [list, bind_eq_ok_iff, mapM_eq_ok_iff, unlessFault_eq_ok_iff, pure_eq_ok_iff,
      exists_unit_iff, Tree.value?_array_iff, Value.array.injEq]
    rw [hitems]
    simp only [forall₂_exists_iff]
    constructor
    · rintro ⟨_, ⟨values, hvalues, has⟩, rfl, rfl⟩
      exact ⟨values, ⟨rfl, values, hvalues, rfl⟩, has⟩
    · rintro ⟨_, ⟨rfl, values, hvalues, rfl⟩, has⟩
      exact ⟨as, ⟨values, hvalues, has⟩, rfl, rfl⟩

theorem byValue_list (h : decode.ByValue) : (list decode).ByValue := by
  intro tree as
  simp only [list_eq_ok_iff h, Value.value?_tree, Option.some.injEq]
  simp

theorem variant_eq_ok_iff {type : String} {form? : Value → Option α} {a : α} {tree : Tree} :
    variant type form? tree = .ok a ↔ tree.value?.bind form? = some a := by
  cases hvalue : tree.value? with
  | some v =>
    simp only [variant, Tree.fault?_eq_none_of_value? hvalue, hvalue, Option.bind_some]
    cases form? v <;> simp [bind, Except.bind, unlessFault, pure, Except.pure]
  | none =>
    simp only [variant, hvalue, Option.bind_none, reduceCtorEq, iff_false]
    cases tree.fault? <;> simp [bind, Except.bind, unlessFault]

theorem byValue_variant (type : String) (form? : Value → Option α) :
    (variant type form?).ByValue := by
  intro tree a
  simp only [variant_eq_ok_iff, Value.value?_tree, Option.bind_some, Option.bind_eq_some_iff]

end Decoder

/-! ## Records -/

/-- A field that is read by value. -/
def Field.ByValue {σ : Type} (field : Field σ) : Prop :=
  ∀ tree s t, field.read tree s = .ok t ↔ ∃ v, tree.value? = some v ∧ field.read v.tree s = .ok t

theorem Field.ByValue.mandatory {σ : Type} {field : Field σ} (h : field.ByValue) :
    field.mandatory.ByValue :=
  h

theorem Field.ByValue.orNamed {σ : Type} {field : Field σ} (h : field.ByValue) (other : String) :
    (field.orNamed other).ByValue :=
  h

theorem Field.byValue_of {σ α : Type} {decode : Decoder α} (h : decode.ByValue) (name : String)
    (set : α → σ → σ) : (Field.of name decode set).ByValue := by
  intro tree s t
  simp only [Field.of, map_eq_ok_iff, h tree]
  constructor
  · rintro ⟨a, ⟨v, hv, ha⟩, rfl⟩
    exact ⟨v, hv, a, ha, rfl⟩
  · rintro ⟨v, hv, a, ha, rfl⟩
    exact ⟨a, ⟨v, hv, ha⟩, rfl⟩

namespace Record

variable {σ : Type} {record : Record σ}

theorem readMember_eq_ok_iff {seen : List String} {s : σ} {key : Key} {tree : Tree}
    {r : List String × σ} : record.readMember seen s key tree = .ok r ↔
      ∃ field, record.field? key.name = some field ∧ field.name ∉ seen ∧
        ∃ t, field.read tree s = .ok t ∧ (field.name :: seen, t) = r := by
  unfold readMember
  cases record.field? key.name with
  | none => simp
  | some field =>
    by_cases h : field.name ∈ seen
    · simp [h]
    · simp [h, map_eq_ok_iff]

theorem readMembers_cons_eq_ok_iff {seen : List String} {s : σ} {key : Key} {tree : Tree}
    {rest : List (Key × Tree)} {r : List String × σ} :
    record.readMembers seen s ((key, tree) :: rest) = .ok r ↔
      ∃ field, record.field? key.name = some field ∧ field.name ∉ seen ∧
        ∃ t, field.read tree s = .ok t ∧
          record.readMembers (field.name :: seen) t rest = .ok r := by
  rw [readMembers, bind_eq_ok_iff]
  simp only [readMember_eq_ok_iff]
  constructor
  · rintro ⟨_, ⟨field, hfield, hnew, t, ht, rfl⟩, hr⟩
    exact ⟨field, hfield, hnew, t, ht, hr⟩
  · rintro ⟨field, hfield, hnew, t, ht, hr⟩
    exact ⟨_, ⟨field, hfield, hnew, t, ht, rfl⟩, hr⟩

theorem mem_fields_of_field? {name : String} {field : Field σ}
    (h : record.field? name = some field) : field ∈ record.fields :=
  List.mem_of_find?_eq_some h

/-- Members are read by value. -/
theorem readMembers_eq_ok_iff (h : ∀ field ∈ record.fields, field.ByValue) {seen : List String}
    {s : σ} {members : List (Key × Tree)} {r : List String × σ} :
    record.readMembers seen s members = .ok r ↔ ∃ values,
      List.Forall₂ (fun t v => t.1.name = v.1 ∧ t.2.value? = some v.2) members values ∧
        record.readMembers seen s (Value.memberTrees values) = .ok r := by
  induction members generalizing seen s with
  | nil => simp [Value.memberTrees]
  | cons member rest ih =>
    obtain ⟨key, tree⟩ := member
    rw [readMembers_cons_eq_ok_iff]
    constructor
    · rintro ⟨field, hfield, hnew, t, ht, hr⟩
      obtain ⟨v, hv, hread⟩ := (h field (mem_fields_of_field? hfield) tree s t).mp ht
      obtain ⟨values, hvalues, hr⟩ := ih.mp hr
      refine ⟨(key.name, v) :: values, .cons ⟨rfl, hv⟩ hvalues, ?_⟩
      rw [Value.memberTrees, readMembers_cons_eq_ok_iff]
      exact ⟨field, hfield, hnew, t, hread, hr⟩
    · rintro ⟨_, hall, hr⟩
      obtain ⟨⟨name, v⟩, values, ⟨rfl, hv⟩, hvalues, rfl⟩ := List.forall₂_cons_left_iff.mp hall
      rw [Value.memberTrees, readMembers_cons_eq_ok_iff] at hr
      obtain ⟨field, hfield, hnew, t, ht, hrest⟩ := hr
      refine ⟨field, hfield, hnew, t, ?_, ih.mpr ⟨values, hvalues, hrest⟩⟩
      exact (h field (mem_fields_of_field? hfield) tree s t).mpr ⟨v, hv, ht⟩

/-- An object is accepted iff its members are, its end is there, and no required field is
    missing. -/
theorem readObject_eq_ok_iff {span : Span} {members : List (Key × Tree)} {fault : Option Fault}
    {s : σ} : record.readObject span members fault = .ok s ↔ fault = none ∧
      ∃ seen, record.readMembers [] record.initial members = .ok (seen, s) ∧
        ∀ field ∈ record.fields, field.required → field.name ∈ seen := by
  simp only [readObject, bind_eq_ok_iff, unlessFault_eq_ok_iff, exists_unit_iff, Prod.exists]
  constructor
  · rintro ⟨seen, t, hread, rfl, h⟩
    split at h
    next => exact absurd h (by simp)
    next hmissing =>
      obtain rfl := Except.ok.inj h
      simp only [List.find?_eq_none, Bool.and_eq_true, Bool.not_eq_true', not_and,
        Bool.not_eq_false, List.contains_iff_mem] at hmissing
      exact ⟨rfl, seen, hread, hmissing⟩
  · rintro ⟨rfl, seen, hread, hmissing⟩
    refine ⟨seen, s, hread, rfl, ?_⟩
    split
    next field h =>
      have hfield := List.find?_some h
      simp only [Bool.and_eq_true, Bool.not_eq_true', List.contains_eq_mem,
        decide_eq_false_iff_not] at hfield
      exact absurd (hmissing field (List.mem_of_find?_eq_some h) hfield.1) hfield.2
    next => rfl

theorem readObject_byValue (h : ∀ field ∈ record.fields, field.ByValue) {span : Span}
    {members : List (Key × Tree)} {fault : Option Fault} {s : σ} :
    record.readObject span members fault = .ok s ↔ fault = none ∧ ∃ values,
      List.Forall₂ (fun t v => t.1.name = v.1 ∧ t.2.value? = some v.2) members values ∧
        record.readObject Value.nowhere (Value.memberTrees values) none = .ok s := by
  simp only [readObject_eq_ok_iff]
  constructor
  · rintro ⟨rfl, seen, hread, hmissing⟩
    obtain ⟨values, hvalues, hread⟩ := (readMembers_eq_ok_iff h).mp hread
    exact ⟨rfl, values, hvalues, trivial, seen, hread, hmissing⟩
  · rintro ⟨rfl, values, hvalues, -, seen, hread, hmissing⟩
    exact ⟨rfl, seen, (readMembers_eq_ok_iff h).mpr ⟨values, hvalues, hread⟩, hmissing⟩

/-! ### Lists of fields -/

section Items

variable {span : Span} {fault : Option Fault} {total count last : Nat} {s t : σ}

theorem readItems_nil_eq_ok_iff {items : List Tree} :
    record.readItems span fault total [] count last s items = .ok t ↔
      fault = none ∧ items = [] ∧ s = t := by
  cases items with
  | nil =>
    rw [readItems, bind_eq_ok_iff]
    simp only [unlessFault_eq_ok_iff, exists_unit_iff, Option.map_eq_none_iff, pure_eq_ok_iff,
      true_and]
  | cons item rest => simp [readItems]

theorem readItems_missing_eq_ok_iff {field : Field σ} {fields : List (Field σ)} :
    record.readItems span fault total (field :: fields) count last s [] = .ok t ↔
      fault = none ∧ field.required = false ∧
        record.readItems span none total fields (count + 1) last s [] = .ok t := by
  simp only [readItems, bind_eq_ok_iff, unlessFault_eq_ok_iff, exists_unit_iff]
  cases field.required <;> simp

theorem readItems_cons_eq_ok_iff {field : Field σ} {fields : List (Field σ)} {item : Tree}
    {rest : List Tree} :
    record.readItems span fault total (field :: fields) count last s (item :: rest) = .ok t ↔
      ∃ u, field.read item s = .ok u ∧
        record.readItems span fault total fields (count + 1) item.report u rest = .ok t := by
  rw [readItems, bind_eq_ok_iff]

/-- A list of fields is read by value. -/
theorem readItems_byValue {fields : List (Field σ)} (h : ∀ field ∈ fields, field.ByValue)
    {items : List Tree} (total' count' last' : Nat) :
    record.readItems span fault total fields count last s items = .ok t ↔ fault = none ∧
      ∃ values, List.Forall₂ (fun t v => t.value? = some v) items values ∧
        record.readItems Value.nowhere none total' fields count' last' s
          (Value.itemTrees values) = .ok t := by
  induction fields generalizing s items fault count last count' last' with
  | nil =>
    simp only [readItems_nil_eq_ok_iff]
    constructor
    · rintro ⟨rfl, rfl, rfl⟩
      exact ⟨rfl, [], .nil, trivial, rfl, rfl⟩
    · rintro ⟨rfl, values, hvalues, -, hnil, rfl⟩
      cases hvalues with
      | nil => exact ⟨rfl, rfl, rfl⟩
      | cons => exact absurd hnil (by simp [Value.itemTrees])
  | cons field fields ih =>
    have hfields : ∀ other ∈ fields, other.ByValue := fun other hother => h other (by simp [hother])
    cases items with
    | nil =>
      rw [readItems_missing_eq_ok_iff, ih hfields (count' + 1) last']
      constructor
      · rintro ⟨rfl, hrequired, -, values, hvalues, hread⟩
        cases hvalues
        refine ⟨rfl, [], .nil, ?_⟩
        exact readItems_missing_eq_ok_iff.mpr ⟨rfl, hrequired, hread⟩
      · rintro ⟨rfl, values, hvalues, hread⟩
        cases hvalues
        obtain ⟨-, hrequired, hread⟩ := readItems_missing_eq_ok_iff.mp hread
        exact ⟨rfl, hrequired, rfl, [], .nil, hread⟩
    | cons item rest =>
      rw [readItems_cons_eq_ok_iff]
      constructor
      · rintro ⟨u, hu, hread⟩
        obtain ⟨v, hv, hitem⟩ := (h field (by simp) item s u).mp hu
        obtain ⟨rfl, values, hvalues, hrest⟩ := (ih hfields (count' + 1) v.tree.report).mp hread
        exact ⟨rfl, v :: values, .cons hv hvalues, readItems_cons_eq_ok_iff.mpr ⟨u, hitem, hrest⟩⟩
      · rintro ⟨rfl, _, hall, hread⟩
        obtain ⟨v, values, hv, hvalues, rfl⟩ := List.forall₂_cons_left_iff.mp hall
        obtain ⟨u, hitem, hrest⟩ := readItems_cons_eq_ok_iff.mp hread
        refine ⟨u, (h field (by simp) item s u).mpr ⟨v, hv, hitem⟩, ?_⟩
        exact (ih hfields (count' + 1) v.tree.report).mpr ⟨rfl, values, hvalues, hrest⟩

end Items

/-- **A record whose fields are read by value is read by value.** -/
theorem byValue_decoder (h : ∀ field ∈ record.fields, field.ByValue) :
    record.decoder.ByValue := by
  intro tree s
  cases tree with
  | leaf span t => simp [decoder, Tree.value?_leaf, Value.tree]
  | broken fault => simp [decoder, Tree.value?_broken]
  | object span members fault =>
    rw [decoder, readObject_byValue h]
    simp only [Tree.value?_object_iff]
    constructor
    · rintro ⟨rfl, values, hvalues, hread⟩
      exact ⟨_, ⟨rfl, values, hvalues, rfl⟩, hread⟩
    · rintro ⟨_, ⟨rfl, values, hvalues, rfl⟩, hread⟩
      exact ⟨rfl, values, hvalues, hread⟩
  | array span items fault =>
    rw [decoder]
    simp only [Tree.value?_array_iff]
    constructor
    · intro hread
      obtain ⟨rfl, values, hvalues, hread⟩ := (readItems_byValue h items.length 0 0).mp hread
      refine ⟨_, ⟨rfl, values, hvalues, rfl⟩, ?_⟩
      have hlength : items.length = (Value.itemTrees values).length := by
        rw [Value.itemTrees_eq_map, List.length_map, hvalues.length_eq]
      rw [Value.tree, decoder, ← hlength]
      exact hread
    · rintro ⟨_, ⟨rfl, values, hvalues, rfl⟩, hread⟩
      exact (readItems_byValue h _ _ _).mpr ⟨rfl, values, hvalues, hread⟩

end Record

/-! ## Texts -/

/-- **What is read from a text is what is read from its value.** -/
theorem decodeText_eq_ok_iff {α : Type} {decode : Decoder α} (h : decode.ByValue) {text : String}
    {a : α} : decodeText decode text = .ok a ↔
      ∃ v, (Document.read text.toList).value? = some v ∧ decode v.tree = .ok a := by
  simp only [decodeText, mapError_eq_ok_iff, bind_eq_ok_iff, unlessFault_eq_ok_iff,
    exists_unit_iff, pure_eq_ok_iff, h (Document.read text.toList).tree]
  rw [Document.value?]
  cases (Document.read text.toList).fault <;> simp

end FitScript.Json
