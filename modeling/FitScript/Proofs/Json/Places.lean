import FitScript.Proofs.Json.Decoding

/-!
# Places of values

Where in a value another one stands, and which of the values inside a record its fields read.

* `Value.Occurs`: a value is, or stands at some depth in, another one.
* `Decoder.WithoutObjects`: a decoder of values in which no object occurs.
* `Record.Gives`: a value of a record gives a value for a field, by name or by position.
* `Record.keys_of_decoder`: the keys of an object that is read are names of fields.
* `Record.exists_gives_of_occurs`: what occurs in a value that is read is this value, or occurs in
  one that a field reads.
-/

namespace FitScript.Json

open Outcome

/-! ## Occurrences -/

/-- A value is another one, or stands in it at some depth. -/
inductive Value.Occurs (w : Value) : Value → Prop where
  | self : Occurs w w
  | item {v : Value} {items : List Value} (hitem : v ∈ items) (h : Occurs w v) :
      Occurs w (.array items)
  | member {v : Value} {name : String} {members : List (String × Value)}
      (hmember : (name, v) ∈ members) (h : Occurs w v) : Occurs w (.object members)

namespace Value

theorem not_occurs_scalar {members : List (String × Value)} {s : Scalar} :
    ¬ Occurs (.object members) (.scalar s) := by
  intro h
  cases h

theorem occurs_array_iff {members : List (String × Value)} {items : List Value} :
    Occurs (.object members) (.array items) ↔ ∃ item ∈ items, Occurs (.object members) item := by
  constructor
  · intro h
    cases h with
    | item hitem h => exact ⟨_, hitem, h⟩
  · rintro ⟨item, hitem, h⟩
    exact .item hitem h

end Value

namespace Decoder

variable {α : Type} {decode : Decoder α}

/-- A decoder of values in which no object occurs. -/
def WithoutObjects (decode : Decoder α) : Prop :=
  ∀ v a, decode v.tree = .ok a → ∀ members, ¬ Value.Occurs (.object members) v

theorem withoutObjects_named (expected : String) : (named expected).WithoutObjects := by
  intro v s h members
  rw [named_eq_ok_iff, Value.value?_tree] at h
  obtain rfl := Option.some.inj h
  exact Value.not_occurs_scalar

theorem WithoutObjects.optional (h : decode.WithoutObjects) :
    (optional decode).WithoutObjects := by
  intro v o ho members
  rw [optional_eq_ok_iff, Value.value?_tree] at ho
  rcases ho with ⟨hnull, -⟩ | ⟨-, a, ha, -⟩
  · obtain rfl := Option.some.inj hnull
    exact Value.not_occurs_scalar
  · exact h v a ha members

/-- An object that occurs in a list that is read occurs in an item that is read. -/
theorem exists_item_of_occurs (hvalue : decode.ByValue) {v : Value} {as : List α}
    (h : list decode v.tree = .ok as) {members : List (String × Value)}
    (hoccurs : Value.Occurs (.object members) v) :
    ∃ items, v = .array items ∧ ∃ item ∈ items, Value.Occurs (.object members) item ∧
      ∃ a, decode item.tree = .ok a := by
  obtain ⟨items, hitems, hall⟩ := (list_eq_ok_iff hvalue).mp h
  obtain rfl := Option.some.inj (v.value?_tree.symm.trans hitems)
  obtain ⟨item, hitem, hoccurs⟩ := Value.occurs_array_iff.mp hoccurs
  obtain ⟨a, -, ha⟩ := exists_of_mem_left hall hitem
  exact ⟨items, rfl, item, hitem, hoccurs, a, ha⟩

theorem WithoutObjects.list (hvalue : decode.ByValue) (h : decode.WithoutObjects) :
    (list decode).WithoutObjects := by
  intro v as has members hoccurs
  obtain ⟨-, -, item, -, hoccurs, a, ha⟩ := exists_item_of_occurs hvalue has hoccurs
  exact h item a ha members hoccurs

end Decoder

/-! ## Records -/

namespace Record

variable {σ : Type} {record : Record σ}

/-- A value of a record gives a value for a field: an object by a name of the field, a list by its
    position. -/
inductive Gives (record : Record σ) : Value → Field σ → Value → Prop where
  | member {name : String} {field : Field σ} {x : Value} {members : List (String × Value)}
      (hfield : record.field? name = some field) (h : (name, x) ∈ members) :
      Gives record (.object members) field x
  | item {i : Nat} {field : Field σ} {x : Value} {items : List Value}
      (hfield : record.fields[i]? = some field) (h : items[i]? = some x) :
      Gives record (.array items) field x

theorem Gives.mem_fields {v x : Value} {field : Field σ} (h : record.Gives v field x) :
    field ∈ record.fields := by
  cases h with
  | member hfield _ => exact mem_fields_of_field? hfield
  | item hfield _ => exact List.mem_of_getElem? hfield

/-- Each member of an object that is read is read by the field of its name. -/
theorem exists_read_of_readMembers {members : List (String × Value)} {seen : List String} {s : σ}
    {r : List String × σ}
    (h : record.readMembers seen s (Value.memberTrees members) = .ok r) {name : String} {x : Value}
    (hmember : (name, x) ∈ members) :
    ∃ field, record.field? name = some field ∧ ∃ s t, field.read x.tree s = .ok t := by
  induction members generalizing seen s with
  | nil => exact absurd hmember List.not_mem_nil
  | cons member rest ih =>
    obtain ⟨field, hfield, -, t, ht, hrest⟩ := readMembers_cons_eq_ok_iff.mp h
    rcases List.mem_cons.mp hmember with rfl | hmember
    · exact ⟨field, hfield, s, t, ht⟩
    · exact ih hrest hmember

/-- Each item of a list that is read is read by the field of its position. -/
theorem exists_read_of_readItems {span : Span} {fault : Option Fault} {total count last : Nat}
    {fields : List (Field σ)} {items : List Value} {s t : σ}
    (h : record.readItems span fault total fields count last s (Value.itemTrees items) = .ok t)
    {i : Nat} {x : Value} (hitem : items[i]? = some x) :
    ∃ field, fields[i]? = some field ∧ ∃ s t, field.read x.tree s = .ok t := by
  induction fields generalizing items s fault count last i with
  | nil =>
    obtain ⟨-, hnil, -⟩ := readItems_nil_eq_ok_iff.mp h
    cases items with
    | nil => simp at hitem
    | cons => exact absurd hnil (by simp [Value.itemTrees])
  | cons field fields ih =>
    cases items with
    | nil => simp at hitem
    | cons item rest =>
      obtain ⟨u, hu, hrest⟩ := readItems_cons_eq_ok_iff.mp h
      cases i with
      | zero =>
        obtain rfl := Option.some.inj hitem
        exact ⟨field, rfl, s, u, hu⟩
      | succ i => exact ih hrest hitem

/-- **The keys of an object that is read are names of fields.** -/
theorem keys_of_decoder {members : List (String × Value)} {s : σ}
    (h : record.decoder (Value.object members).tree = .ok s) :
    ∀ member ∈ members, member.1 ∈ record.fields.flatMap Field.names := by
  rintro ⟨name, x⟩ hmember
  obtain ⟨-, seen, hread, -⟩ := readObject_eq_ok_iff.mp h
  obtain ⟨field, hfield, -⟩ := exists_read_of_readMembers hread hmember
  have hname : name ∈ field.names := by simpa using List.find?_some hfield
  exact List.mem_flatMap.mpr ⟨field, mem_fields_of_field? hfield, hname⟩

/-- **What occurs in a value that is read is this value, or occurs in one that a field reads.** -/
theorem exists_gives_of_occurs {v w : Value} {s : σ} (h : record.decoder v.tree = .ok s)
    (hoccurs : Value.Occurs w v) : w = v ∨ ∃ field x, record.Gives v field x ∧
      Value.Occurs w x ∧ ∃ s t, field.read x.tree s = .ok t := by
  cases hoccurs with
  | self => exact .inl rfl
  | @item x items hitem hoccurs =>
    obtain ⟨i, hi⟩ := List.mem_iff_getElem?.mp hitem
    obtain ⟨field, hfield, hread⟩ := exists_read_of_readItems h hi
    exact .inr ⟨field, x, .item hfield hi, hoccurs, hread⟩
  | @member x name members hmember hoccurs =>
    obtain ⟨-, seen, hmembers, -⟩ := readObject_eq_ok_iff.mp h
    obtain ⟨field, hfield, hread⟩ := exists_read_of_readMembers hmembers hmember
    exact .inr ⟨field, x, .member hfield hmember, hoccurs, hread⟩

end Record

end FitScript.Json
