import FitScript.Proofs.Json.Places
import Mathlib.Data.List.Nodup
import Mathlib.Logic.Relation

/-!
# Order of members

Values that differ only in the order in which the members of their objects stand.

* `Value.Reorders`: the members of one object somewhere in a value are put in another order.
* `Value.Reordered`: so are those of any objects.
* `Value.DistinctKeys`: no object in a value has two members of one name.
* `Value.reordered_sorted`: such a value with its members sorted is a reordered one.
-/

namespace FitScript.Json

namespace Value

/-! ## Reordering -/

/-- The members of one object, which a value is or which stands in it, in another order. -/
inductive Reorders : Value → Value → Prop where
  | members {members others : List (String × Value)} (h : members.Perm others) :
      Reorders (.object members) (.object others)
  | item {v w : Value} (before after : List Value) (h : Reorders v w) :
      Reorders (.array (before ++ v :: after)) (.array (before ++ w :: after))
  | member {v w : Value} (before after : List (String × Value)) (name : String)
      (h : Reorders v w) :
      Reorders (.object (before ++ (name, v) :: after)) (.object (before ++ (name, w) :: after))

/-- The members of any objects in a value in another order. -/
def Reordered : Value → Value → Prop :=
  Relation.ReflTransGen Reorders

theorem Reorders.symm {v w : Value} (h : v.Reorders w) : w.Reorders v := by
  induction h with
  | members h => exact .members h.symm
  | item before after _ ih => exact .item before after ih
  | member before after name _ ih => exact .member before after name ih

/-- An object occurs where members are reordered. -/
theorem Reorders.exists_occurs {v w : Value} (h : v.Reorders w) :
    ∃ members, Occurs (.object members) v := by
  induction h with
  | members _ => exact ⟨_, .self⟩
  | item before after _ ih =>
    obtain ⟨members, hoccurs⟩ := ih
    exact ⟨members, .item (by simp) hoccurs⟩
  | @member v w before after name _ ih =>
    obtain ⟨members, hoccurs⟩ := ih
    have hmember : (name, v) ∈ before ++ (name, v) :: after := by simp
    exact ⟨members, .member hmember hoccurs⟩

theorem Reorders.nested {v w : Value} (h : v.Reorders w) {depth : Nat} (hv : v.Nested depth) :
    w.Nested depth := by
  induction h generalizing depth with
  | members h =>
    cases hv with
    | object hv => exact .object fun member hmember => hv member (h.mem_iff.mpr hmember)
  | @item v w before after _ ih =>
    cases hv with
    | array hv =>
      simp only [List.forall_mem_append, List.forall_mem_cons] at hv
      refine .array ?_
      simp only [List.forall_mem_append, List.forall_mem_cons]
      exact ⟨hv.1, ih hv.2.1, hv.2.2⟩
  | @member v w before after name _ ih =>
    cases hv with
    | object hv =>
      simp only [List.forall_mem_append, List.forall_mem_cons] at hv
      refine .object ?_
      simp only [List.forall_mem_append, List.forall_mem_cons]
      exact ⟨hv.1, ih hv.2.1, hv.2.2⟩

namespace Reordered

variable {u v w : Value}

theorem refl (v : Value) : v.Reordered v :=
  Relation.ReflTransGen.refl

theorem trans (h : u.Reordered v) (h' : v.Reordered w) : u.Reordered w :=
  Relation.ReflTransGen.trans h h'

theorem single (h : v.Reorders w) : v.Reordered w :=
  Relation.ReflTransGen.single h

theorem symm (h : v.Reordered w) : w.Reordered v := by
  induction h with
  | refl => exact refl v
  | tail _ hstep ih => exact (single hstep.symm).trans ih

/-- A value that a reordered one is a part of. -/
theorem lift (whole : Value → Value) (hwhole : ∀ v w, v.Reorders w → (whole v).Reorders (whole w))
    (h : v.Reordered w) : (whole v).Reordered (whole w) := by
  induction h with
  | refl => exact refl _
  | tail _ hstep ih => exact ih.trans (single (hwhole _ _ hstep))

theorem nested (h : v.Reordered w) {depth : Nat} (hv : v.Nested depth) : w.Nested depth := by
  induction h with
  | refl => exact hv
  | tail _ hstep ih => exact hstep.nested ih

/-- Items of which each is reordered. -/
theorem array {items others : List Value} (h : List.Forall₂ Reordered items others) :
    (Value.array items).Reordered (.array others) := by
  have hbehind : ∀ before,
      (Value.array (before ++ items)).Reordered (.array (before ++ others)) := by
    induction h with
    | nil => exact fun before => refl _
    | @cons v w items others hvalue _ ih =>
      intro before
      have hfirst : (Value.array (before ++ v :: items)).Reordered
          (.array (before ++ w :: items)) :=
        lift (fun x => .array (before ++ x :: items)) (fun _ _ h => .item before items h)
          hvalue
      have hrest := ih (before ++ [w])
      rw [List.append_assoc, List.append_assoc] at hrest
      exact hfirst.trans hrest
  exact hbehind []

/-- Members of which each keeps its name and is reordered. -/
theorem object {members others : List (String × Value)}
    (h : List.Forall₂ (fun a b => a.1 = b.1 ∧ Reordered a.2 b.2) members others) :
    (Value.object members).Reordered (.object others) := by
  have hbehind : ∀ before,
      (Value.object (before ++ members)).Reordered (.object (before ++ others)) := by
    induction h with
    | nil => exact fun before => refl _
    | @cons a b members others hmember _ ih =>
      intro before
      obtain ⟨name, v⟩ := a
      obtain ⟨_, w⟩ := b
      obtain ⟨rfl, hvalue⟩ := hmember
      have hfirst : (Value.object (before ++ (name, v) :: members)).Reordered
          (.object (before ++ (name, w) :: members)) :=
        lift (fun x => .object (before ++ (name, x) :: members))
          (fun _ _ h => .member before members name h) hvalue
      have hrest := ih (before ++ [(name, w)])
      rw [List.append_assoc, List.append_assoc] at hrest
      exact hfirst.trans hrest
  exact hbehind []

theorem perm {members others : List (String × Value)} (h : members.Perm others) :
    (Value.object members).Reordered (.object others) :=
  single (.members h)

end Reordered

/-! ## Sorting -/

/-- No object, which a value is or which stands in it, has two members of one name. -/
def DistinctKeys (v : Value) : Prop :=
  ∀ members, Occurs (.object members) v → (members.map (·.1)).Nodup

theorem distinctKeys_scalar (s : Scalar) : (Value.scalar s).DistinctKeys :=
  fun _ hoccurs => absurd hoccurs not_occurs_scalar

theorem distinctKeys_array_iff {items : List Value} :
    (Value.array items).DistinctKeys ↔ ∀ item ∈ items, item.DistinctKeys := by
  constructor
  · exact fun h item hitem members hoccurs => h members (.item hitem hoccurs)
  · intro h members hoccurs
    obtain ⟨item, hitem, hoccurs⟩ := occurs_array_iff.mp hoccurs
    exact h item hitem members hoccurs

theorem distinctKeys_object_iff {members : List (String × Value)} :
    (Value.object members).DistinctKeys ↔
      (members.map (·.1)).Nodup ∧ ∀ member ∈ members, member.2.DistinctKeys := by
  constructor
  · exact fun h => ⟨h members .self, fun _ hmember others hoccurs =>
      h others (.member hmember hoccurs)⟩
  · rintro ⟨hnodup, h⟩ others hoccurs
    cases hoccurs with
    | self => exact hnodup
    | member hmember hoccurs => exact h _ hmember others hoccurs

theorem perm_insertMember {name : String} {value : Value} {others : List (String × Value)}
    (h : name ∉ others.map (·.1)) :
    (insertMember name value others).Perm ((name, value) :: others) := by
  induction others with
  | nil => exact .refl _
  | cons other others ih =>
    obtain ⟨key, kept⟩ := other
    rw [List.map_cons, List.mem_cons, not_or] at h
    rw [insertMember, if_neg h.1]
    by_cases hlt : name < key
    · rw [if_pos hlt]
    · rw [if_neg hlt]
      exact ((ih h.2).cons _).trans (.swap _ _ _)

theorem sortedItems_eq_map (items : List Value) : sortedItems items = items.map sorted := by
  induction items with
  | nil => rfl
  | cons item rest ih => rw [sortedItems, ih, List.map_cons]

theorem perm_sortedMembers {members others : List (String × Value)}
    (h : ((others ++ members).map (·.1)).Nodup) :
    (sortedMembers others members).Perm (others ++ members.map fun m => (m.1, m.2.sorted)) := by
  induction members generalizing others with
  | nil => simp [sortedMembers]
  | cons member members ih =>
    obtain ⟨name, value⟩ := member
    have hname : name ∉ others.map (·.1) := by
      simp only [List.map_append, List.map_cons, List.nodup_middle, List.nodup_cons,
        List.mem_append, not_or] at h
      exact h.1.1
    have hinsert : (insertMember name value.sorted others).Perm ((name, value.sorted) :: others) :=
      perm_insertMember hname
    have hkeys : ((insertMember name value.sorted others ++ members).map (·.1)).Perm
        ((others ++ (name, value) :: members).map (·.1)) := by
      simp only [List.map_append, List.map_cons]
      exact ((hinsert.map (·.1)).append_right _).trans List.perm_middle.symm
    rw [sortedMembers]
    refine (ih (hkeys.nodup_iff.mpr h)).trans ?_
    refine (hinsert.append_right _).trans ?_
    rw [List.map_cons]
    exact List.perm_middle.symm

/-- **A value without equal keys and the same value sorted differ in order alone.** -/
theorem reordered_sorted {v : Value} (h : v.DistinctKeys) : v.Reordered v.sorted := by
  induction v using Value.induction with
  | scalar s => exact .refl _
  | array items ih =>
    rw [sorted, sortedItems_eq_map]
    refine .array (List.forall₂_map_right_iff.mpr (List.forall₂_same.mpr ?_))
    exact fun item hitem => ih item hitem (distinctKeys_array_iff.mp h item hitem)
  | object members ih =>
    obtain ⟨hnodup, hmembers⟩ := distinctKeys_object_iff.mp h
    have hinside : (Value.object members).Reordered
        (.object (members.map fun m => (m.1, m.2.sorted))) := by
      refine .object (List.forall₂_map_right_iff.mpr (List.forall₂_same.mpr ?_))
      exact fun member hmember => ⟨rfl, ih member hmember (hmembers member hmember)⟩
    have hsorted : (sortedMembers [] members).Perm (members.map fun m => (m.1, m.2.sorted)) :=
      perm_sortedMembers hnodup
    rw [sorted]
    exact hinside.trans (.perm hsorted.symm)

end Value

end FitScript.Json
