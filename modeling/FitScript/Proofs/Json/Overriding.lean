import FitScript.Proofs.Json.OrderFree
import FitScript.Proofs.Json.Places
import FitScript.Proofs.Json.Records

/-!
# Objects that name what differs

Objects that are written for values with defaults. A member may be left out where the default
stands.

* `Slot`, `Overrides`: the parts of a value, and the objects that are written for them.
* `Record.Fits`: the fields of a record read slots, whether they are written or left out.
* `Record.decoder_of_overrides`: an object that is written for such slots is read as their value.
* `AddsMember`, `Record.not_read_of_addsMember`, `Record.not_read_of_addsMember_inside`: with a
  member of another name it is not read, nor with one in a record that stands in it.
-/

namespace FitScript.Json

open Outcome

/-- A part of a value that is written as a member of an object. -/
structure Slot where
  name : String
  /-- What the member may hold. -/
  Writes : Value → Prop
  /-- The part is the default, so that the member may be left out. -/
  IsDefault : Prop

/-- A slot that is written in one way. -/
def Slot.exactly (name : String) (v : Value) (isDefault : Prop) : Slot :=
  ⟨name, (· = v), isDefault⟩

/-- Members for slots in their order. Those with their default may be left out. -/
inductive Selects : List Slot → List (String × Value) → Prop where
  | nil : Selects [] []
  | write {slot : Slot} {v : Value} {slots : List Slot} {members : List (String × Value)}
      (hv : slot.Writes v) (h : Selects slots members) :
      Selects (slot :: slots) ((slot.name, v) :: members)
  | leave {slot : Slot} {slots : List Slot} {members : List (String × Value)}
      (hdefault : slot.IsDefault) (h : Selects slots members) : Selects (slot :: slots) members

/-- An object is written for some slots, in any order. Those with their default may be left out. -/
inductive Overrides (slots : List Slot) : Value → Prop where
  | object {members others : List (String × Value)} (h : Selects slots members)
      (hperm : members.Perm others) : Overrides slots (.object others)

/-- An object and the same with one more member, anywhere, under none of the given names. -/
def AddsMember (names : List String) (v w : Value) : Prop :=
  ∃ before after name x, name ∉ names ∧ v = .object (before ++ after) ∧
    w = .object (before ++ (name, x) :: after)

/-! ## Nesting -/

theorem Selects.exists_slot {slots : List Slot} {members : List (String × Value)}
    (h : Selects slots members) :
    ∀ member ∈ members, ∃ slot ∈ slots, slot.Writes member.2 := by
  induction h with
  | nil => simp
  | write hv _ ih =>
    refine List.forall_mem_cons.mpr ⟨⟨_, List.mem_cons_self, hv⟩, fun member hmember => ?_⟩
    obtain ⟨slot, hslot, hwrites⟩ := ih member hmember
    exact ⟨slot, List.mem_cons_of_mem _ hslot, hwrites⟩
  | leave _ _ ih =>
    intro member hmember
    obtain ⟨slot, hslot, hwrites⟩ := ih member hmember
    exact ⟨slot, List.mem_cons_of_mem _ hslot, hwrites⟩

theorem Overrides.nested {slots : List Slot} {v : Value} (h : Overrides slots v) {depth : Nat}
    (hslots : ∀ slot ∈ slots, ∀ w, slot.Writes w → w.Nested depth) : v.Nested (depth + 1) := by
  obtain ⟨hselects, hperm⟩ := h
  refine .object fun member hmember => ?_
  obtain ⟨slot, hslot, hwrites⟩ := hselects.exists_slot member (hperm.mem_iff.mpr hmember)
  exact hslots slot hslot member.2 hwrites

namespace Record

variable {σ α : Type} {record : Record σ} {slot : Slot} {slots : List Slot} {s t : σ}

/-! ## Reading -/

/-- The fields of a record read slots into a value one after another. A slot that is left out
    stands there before it is read. -/
inductive Fits (record : Record σ) : List Slot → σ → σ → Prop where
  | nil (s : σ) : Fits record [] s s
  | cons {slot : Slot} {field : Field σ} {slots : List Slot} {s t u : σ}
      (hfield : record.field? slot.name = some field) (hname : field.name = slot.name)
      (hread : ∀ v, slot.Writes v → field.read v.tree s = .ok t)
      (hdefault : slot.IsDefault → t = s) (h : Fits record slots t u) :
      Fits record (slot :: slots) s u

/-- A slot that a decoder reads and that is stored where its default stood. -/
theorem Fits.of {decode : Decoder α} {set : α → σ → σ} {a : α}
    (hfield : record.field? slot.name = some (Field.of slot.name decode set))
    (hwrites : ∀ v, slot.Writes v → decode v.tree = .ok a)
    (hdefault : slot.IsDefault → set a s = s) (h : Fits record slots (set a s) t) :
    Fits record (slot :: slots) s t := by
  refine .cons hfield rfl (fun v hv => ?_) hdefault h
  exact map_eq_ok_iff.mpr ⟨a, hwrites v hv, rfl⟩

/-- A slot with one way to be written, whose field has a default. -/
theorem Fits.exactly {decode : Decoder α} {set : α → σ → σ} {name : String} {v : Value} {a a₀ : α}
    (hfield : record.field? name = some (Field.of name decode set)) (hread : decode v.tree = .ok a)
    (hdefault : set a₀ s = s) (h : record.Fits slots (set a s) t) :
    record.Fits (.exactly name v (a = a₀) :: slots) s t := by
  refine .of hfield ?_ ?_ h
  · rintro _ rfl
    exact hread
  · rintro rfl
    exact hdefault

/-- Selected members fill a value. -/
theorem Fits.exists_fills (h : record.Fits slots s t) {members : List (String × Value)}
    (hselects : Selects slots members) :
    ∃ written, given written = members ∧ written.map (·.1) = slots.map Slot.name ∧
      Fills record written s t := by
  induction h generalizing members with
  | nil s =>
    cases hselects
    exact ⟨[], rfl, rfl, .nil s⟩
  | @cons slot field slots s t u hfield hname hread hdefault _ ih =>
    cases hselects with
    | @write _ v _ _ hv hselects =>
      obtain ⟨written, rfl, hnames, hfills⟩ := ih hselects
      exact ⟨(slot.name, some v) :: written, rfl, by rw [List.map_cons, hnames, List.map_cons],
        .read hfield hname (hread v hv) hfills⟩
    | leave hleft hselects =>
      obtain ⟨written, rfl, hnames, hfills⟩ := ih hselects
      exact ⟨(slot.name, none) :: written, rfl, by rw [List.map_cons, hnames, List.map_cons],
        .absent (hdefault hleft ▸ hfills)⟩

/-- **An object that is written for slots is read as their value.** -/
theorem decoder_of_overrides (hfits : record.Fits slots record.initial s)
    (hnodup : (slots.map Slot.name).Nodup) (hoptional : ∀ field ∈ record.fields, ¬ field.required)
    (hfree : record.decoder.OrderFree) {v : Value} (h : Overrides slots v) :
    record.decoder v.tree = .ok s := by
  obtain ⟨hselects, hperm⟩ := h
  obtain ⟨written, rfl, hnames, hfills⟩ := hfits.exists_fills hselects
  -- read in the order of the slots first, then in the order in which the members stand
  refine (hfree.eq_ok_iff (.perm hperm)).mp (decoder_given hfills (hnames ▸ hnodup) ?_)
  exact fun field hfield hrequired => absurd hrequired (hoptional field hfield)

/-- An object with a member that belongs to no field is not read. -/
theorem not_read_of_addsMember {v w : Value}
    (h : AddsMember (record.fields.flatMap Field.names) v w) :
    record.decoder w.tree ≠ .ok s := by
  obtain ⟨before, after, name, x, hname, -, rfl⟩ := h
  intro hread
  exact hname (keys_of_decoder hread (name, x) (by simp))

/-- Nor is one in which another record stands that has such a member. -/
theorem not_read_of_addsMember_inside {τ : Type} (inner : Record τ) {set : τ → σ → σ}
    {name : String} {v w : Value}
    (hfield : record.field? name = some (Field.of name inner.decoder set))
    (h : AddsMember (inner.fields.flatMap Field.names) v w)
    (before after : List (String × Value)) :
    record.decoder (Value.object (before ++ (name, w) :: after)).tree ≠ .ok s := by
  intro hread
  obtain ⟨-, seen, hmembers, -⟩ := readObject_eq_ok_iff.mp hread
  obtain ⟨field, hname, s, t, ht⟩ := exists_read_of_readMembers hmembers
    (List.mem_append_right before List.mem_cons_self)
  obtain rfl := Option.some.inj (hfield.symm.trans hname)
  obtain ⟨a, ha, -⟩ := map_eq_ok_iff.mp ht
  exact not_read_of_addsMember h ha

end Record

end FitScript.Json
