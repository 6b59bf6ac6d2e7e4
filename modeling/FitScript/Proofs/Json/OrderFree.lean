import FitScript.Proofs.Json.Reordering
import Mathlib.Data.List.Pairwise

/-!
# Decoders and the order of members

What is read from a value does not depend on the order in which the members of its objects stand.

* `Decoder.OrderFree`: a decoder that reads the same from reordered values. The decoders of texts,
  options, lists and some variants are such decoders.
* `Field.Commute`: two fields that may be read in either order.
* `Record.perm_of_readMembers`: members of fields that commute are read in any order.
* `Record.orderFree_decoder`: so a record of such fields is read in any order.
* `Record.readMembers_renamed`: a member may be given under another name of its field.
* `Record.pairwise_of_readMembers`: no two members that are read belong to one field.
* `decodeText_eq_ok_iff_decodeValue`: what is read from a text and from its value is the same.
-/

namespace FitScript.Json

open Outcome

/-- Of two related lists an entry of the first may be changed. -/
theorem forall₂_of_middle {α β : Type} {R : α → β → Prop} {before after : List α} {x y : α}
    {bs : List β} (hxy : ∀ b, R x b → R y b) (h : List.Forall₂ R (before ++ x :: after) bs) :
    List.Forall₂ R (before ++ y :: after) bs := by
  induction before generalizing bs with
  | nil =>
    obtain ⟨b, rest, hb, hrest, rfl⟩ := List.forall₂_cons_left_iff.mp h
    exact .cons (hxy b hb) hrest
  | cons a before ih =>
    obtain ⟨b, rest, hb, hrest, rfl⟩ := List.forall₂_cons_left_iff.mp h
    exact .cons hb (ih hrest)

namespace Decoder

variable {α : Type} {decode : Decoder α}

/-- A decoder that reads the same from a value with the members of an object in another order. -/
def OrderFree (decode : Decoder α) : Prop :=
  ∀ (v w : Value) (a : α), v.Reorders w → decode v.tree = .ok a → decode w.tree = .ok a

/-- **Reordered values are read as the same.** -/
theorem OrderFree.eq_ok_iff (h : decode.OrderFree) {v w : Value} (hvw : v.Reordered w) {a : α} :
    decode v.tree = .ok a ↔ decode w.tree = .ok a := by
  induction hvw with
  | refl => rfl
  | tail _ hstep ih => exact ih.trans ⟨h _ _ a hstep, h _ _ a hstep.symm⟩

theorem orderFree_named (expected : String) : (named expected).OrderFree := by
  intro v w s hvw h
  rw [named_eq_ok_iff, Value.value?_tree] at h
  obtain rfl := Option.some.inj h
  cases hvw

theorem orderFree_text : text.OrderFree :=
  orderFree_named "a string"

theorem OrderFree.optional (h : decode.OrderFree) : (optional decode).OrderFree := by
  intro v w o hvw ho
  simp only [optional_eq_ok_iff, Value.value?_tree, Option.some.injEq] at ho ⊢
  rcases ho with ⟨rfl, -⟩ | ⟨-, a, ha, rfl⟩
  · cases hvw
  · refine .inr ⟨?_, a, h v w a hvw ha, rfl⟩
    cases hvw <;> simp

theorem OrderFree.list (hvalue : decode.ByValue) (h : decode.OrderFree) :
    (list decode).OrderFree := by
  intro v w as hvw has
  simp only [list_eq_ok_iff hvalue, Value.value?_tree, Option.some.injEq] at has ⊢
  obtain ⟨items, rfl, has⟩ := has
  cases hvw with
  | @item x y before after hxy =>
    exact ⟨_, rfl, forall₂_of_middle (fun a => h x y a hxy) has⟩

theorem orderFree_variant {type : String} {form? : Value → Option α}
    (h : ∀ (v w : Value) (a : α), v.Reorders w → form? v = some a → form? w = some a) :
    (variant type form?).OrderFree := by
  intro v w a hvw ha
  rw [variant_eq_ok_iff, Value.value?_tree] at ha ⊢
  exact h v w a hvw ha

end Decoder

/-! ## Fields -/

namespace Field

variable {σ α β : Type}

/-- A field that reads the same from a value with the members of an object in another order. -/
def OrderFree (field : Field σ) : Prop :=
  ∀ (v w : Value) (s t : σ), v.Reorders w → field.read v.tree s = .ok t →
    field.read w.tree s = .ok t

theorem OrderFree.mandatory {field : Field σ} (h : field.OrderFree) : field.mandatory.OrderFree :=
  h

theorem OrderFree.orNamed {field : Field σ} (h : field.OrderFree) (other : String) :
    (field.orNamed other).OrderFree :=
  h

theorem orderFree_of {decode : Decoder α} (h : decode.OrderFree) (name : String)
    (set : α → σ → σ) : (Field.of name decode set).OrderFree := by
  intro v w s t hvw ht
  obtain ⟨a, ha, rfl⟩ := map_eq_ok_iff.mp ht
  exact map_eq_ok_iff.mpr ⟨a, h v w a hvw ha, rfl⟩

/-- Two fields that may be read in either order. -/
def Commute (field other : Field σ) : Prop :=
  ∀ x y s t, (∃ u, field.read x s = .ok u ∧ other.read y u = .ok t) ↔
    ∃ u, other.read y s = .ok u ∧ field.read x u = .ok t

instance : Std.Symm (Commute (σ := σ)) where
  symm _ _ h x y s t := (h y x s t).symm

/-- Fields commute if they are stored in different places. -/
theorem commute_of {field other : Field σ} {decode : Decoder α} {decode' : Decoder β}
    {set : α → σ → σ} {set' : β → σ → σ}
    (hfield : field.read = (Field.of field.name decode set).read)
    (hother : other.read = (Field.of other.name decode' set').read)
    (h : ∀ a b s, set' b (set a s) = set a (set' b s)) : field.Commute other := by
  intro x y s t
  rw [hfield, hother]
  simp only [Field.of, map_eq_ok_iff]
  constructor
  · rintro ⟨_, ⟨a, ha, rfl⟩, b, hb, rfl⟩
    exact ⟨_, ⟨b, hb, rfl⟩, a, ha, (h a b s).symm⟩
  · rintro ⟨_, ⟨b, hb, rfl⟩, a, ha, rfl⟩
    exact ⟨_, ⟨a, ha, rfl⟩, b, hb, h a b s⟩

end Field

/-! ## Records -/

namespace Record

variable {σ : Type} {record : Record σ}

/-! ### Order of members -/

/-- Whether a member is read depends on which fields have been seen, not on their order. -/
theorem perm_seen_of_readMembers {members : List (Key × Tree)} {seen seen' after : List String}
    (hseen : seen.Perm seen') {s t : σ}
    (hread : record.readMembers seen s members = .ok (after, t)) :
    ∃ after', after.Perm after' ∧ record.readMembers seen' s members = .ok (after', t) := by
  induction members generalizing seen seen' s with
  | nil =>
    obtain ⟨rfl, rfl⟩ := Prod.mk.inj (Except.ok.inj hread)
    exact ⟨seen', hseen, rfl⟩
  | cons member rest ih =>
    obtain ⟨field, hfield, hnew, u, hu, hrest⟩ := readMembers_cons_eq_ok_iff.mp hread
    obtain ⟨after', hafter, hrest'⟩ := ih (hseen.cons field.name) hrest
    exact ⟨after', hafter, readMembers_cons_eq_ok_iff.mpr
      ⟨field, hfield, fun h => hnew (hseen.mem_iff.mpr h), u, hu, hrest'⟩⟩

/-- Members of fields that commute are read in any order. Which fields have been seen is then
    known in another order. -/
theorem perm_of_readMembers (hcommute : record.fields.Pairwise Field.Commute)
    {members others : List (Key × Tree)} (h : members.Perm others) {seen seen' after : List String}
    (hseen : seen.Perm seen') {s t : σ}
    (hread : record.readMembers seen s members = .ok (after, t)) :
    ∃ after', after.Perm after' ∧ record.readMembers seen' s others = .ok (after', t) := by
  induction h generalizing seen seen' after s t with
  | nil => exact perm_seen_of_readMembers hseen hread
  | cons member _ ih =>
    obtain ⟨field, hfield, hnew, u, hu, hrest⟩ := readMembers_cons_eq_ok_iff.mp hread
    obtain ⟨after', hafter, hothers⟩ := ih (hseen.cons field.name) hrest
    exact ⟨after', hafter, readMembers_cons_eq_ok_iff.mpr
      ⟨field, hfield, fun h => hnew (hseen.mem_iff.mpr h), u, hu, hothers⟩⟩
  | swap first second rest =>
    obtain ⟨field, hfield, hnew, u, hu, hrest⟩ := readMembers_cons_eq_ok_iff.mp hread
    obtain ⟨other, hother, hnew', u', hu', hrest⟩ := readMembers_cons_eq_ok_iff.mp hrest
    rw [List.mem_cons, not_or] at hnew'
    have hne : field ≠ other := fun h => hnew'.1 (congrArg Field.name h.symm)
    have hcommutes : field.Commute other :=
      hcommute.forall (mem_fields_of_field? hfield) (mem_fields_of_field? hother) hne
    obtain ⟨w, hw, hw'⟩ := (hcommutes _ _ _ _).mp ⟨u, hu, hu'⟩
    have hswapped : (other.name :: field.name :: seen).Perm (field.name :: other.name :: seen') :=
      (List.Perm.swap _ _ _).trans ((hseen.cons _).cons _)
    obtain ⟨after', hafter, hrest'⟩ := perm_seen_of_readMembers hswapped hrest
    refine ⟨after', hafter, ?_⟩
    refine readMembers_cons_eq_ok_iff.mpr
      ⟨other, hother, fun h => hnew'.2 (hseen.mem_iff.mpr h), w, hw, ?_⟩
    refine readMembers_cons_eq_ok_iff.mpr ⟨field, hfield, ?_, u', hw', hrest'⟩
    rw [List.mem_cons, not_or]
    exact ⟨fun h => hnew'.1 h.symm, fun h => hnew (hseen.mem_iff.mpr h)⟩
  | trans _ _ ih ih' =>
    obtain ⟨middle, hmiddle, hread⟩ := ih hseen hread
    obtain ⟨after', hafter, hothers⟩ := ih' (.refl _) hread
    exact ⟨after', hmiddle.trans hafter, hothers⟩

/-- A member may have the members of an object in it in another order. -/
theorem readMembers_of_reorders (h : ∀ field ∈ record.fields, field.OrderFree)
    {v w : Value} (hvw : v.Reorders w) {before after : List (String × Value)} {name : String}
    {seen : List String} {s : σ} {r : List String × σ}
    (hread : record.readMembers seen s (Value.memberTrees (before ++ (name, v) :: after)) = .ok r) :
    record.readMembers seen s (Value.memberTrees (before ++ (name, w) :: after)) = .ok r := by
  induction before generalizing seen s with
  | nil =>
    obtain ⟨field, hfield, hnew, t, ht, hrest⟩ := readMembers_cons_eq_ok_iff.mp hread
    have ht' := h field (mem_fields_of_field? hfield) v w s t hvw ht
    exact readMembers_cons_eq_ok_iff.mpr ⟨field, hfield, hnew, t, ht', hrest⟩
  | cons member before ih =>
    obtain ⟨field, hfield, hnew, t, ht, hrest⟩ := readMembers_cons_eq_ok_iff.mp hread
    exact readMembers_cons_eq_ok_iff.mpr ⟨field, hfield, hnew, t, ht, ih hrest⟩

/-- An item may have the members of an object in it in another order. -/
theorem readItems_of_reorders {fields : List (Field σ)} (h : ∀ field ∈ fields, field.OrderFree)
    {v w : Value} (hvw : v.Reorders w) {before after : List Value} {span : Span}
    {fault : Option Fault} {total count last : Nat} {s t : σ}
    (hread : record.readItems span fault total fields count last s
      (Value.itemTrees (before ++ v :: after)) = .ok t) :
    record.readItems span fault total fields count last s
      (Value.itemTrees (before ++ w :: after)) = .ok t := by
  induction before generalizing fields count last s with
  | nil =>
    cases fields with
    | nil =>
      obtain ⟨-, hnil, -⟩ := readItems_nil_eq_ok_iff.mp hread
      cases hnil
    | cons field fields =>
      have hreport : v.tree.report = w.tree.report := by cases hvw <;> rfl
      obtain ⟨u, hu, hrest⟩ := readItems_cons_eq_ok_iff.mp hread
      rw [hreport] at hrest
      exact readItems_cons_eq_ok_iff.mpr ⟨u, h field (by simp) v w s u hvw hu, hrest⟩
  | cons item before ih =>
    cases fields with
    | nil =>
      obtain ⟨-, hnil, -⟩ := readItems_nil_eq_ok_iff.mp hread
      cases hnil
    | cons field fields =>
      obtain ⟨u, hu, hrest⟩ := readItems_cons_eq_ok_iff.mp hread
      exact readItems_cons_eq_ok_iff.mpr
        ⟨u, hu, ih (fun other hother => h other (by simp [hother])) hrest⟩

/-- **A record is read in any order of members**, if its fields are and may be read in any order. -/
theorem orderFree_decoder (hcommute : record.fields.Pairwise Field.Commute)
    (h : ∀ field ∈ record.fields, field.OrderFree) : record.decoder.OrderFree := by
  intro v w s hvw hs
  cases hvw with
  | @members members others hperm =>
    obtain ⟨-, seen, hread, hrequired⟩ := readObject_eq_ok_iff.mp hs
    have htrees : (Value.memberTrees members).Perm (Value.memberTrees others) := by
      rw [Value.memberTrees_eq_map, Value.memberTrees_eq_map]
      exact hperm.map _
    obtain ⟨seen', hseen, hread'⟩ := perm_of_readMembers hcommute htrees (.refl []) hread
    exact readObject_eq_ok_iff.mpr ⟨rfl, seen', hread', fun field hfield hreq =>
      hseen.mem_iff.mp (hrequired field hfield hreq)⟩
  | @member v w before after name hvw =>
    obtain ⟨-, seen, hread, hrequired⟩ := readObject_eq_ok_iff.mp hs
    exact readObject_eq_ok_iff.mpr ⟨rfl, seen, readMembers_of_reorders h hvw hread, hrequired⟩
  | @item v w before after hvw =>
    have hlength : (Value.itemTrees (before ++ v :: after)).length =
        (Value.itemTrees (before ++ w :: after)).length := by
      simp [Value.itemTrees_eq_map]
    rw [Value.tree, decoder, hlength] at hs
    exact readItems_of_reorders h hvw hs

/-! ### Names of members -/

/-- A member may be given under another name of its field. -/
theorem readMembers_renamed {members others : List (String × Value)}
    (h : List.Forall₂ (fun a b => record.field? a.1 = record.field? b.1 ∧ a.2 = b.2) members others)
    (seen : List String) (s : σ) {r : List String × σ} :
    record.readMembers seen s (Value.memberTrees members) = .ok r ↔
      record.readMembers seen s (Value.memberTrees others) = .ok r := by
  induction h generalizing seen s with
  | nil => rfl
  | @cons a b members others hab _ ih =>
    obtain ⟨name, v⟩ := a
    obtain ⟨other, _⟩ := b
    obtain ⟨hfield, rfl⟩ := hab
    simp only [Value.memberTrees, readMembers_cons_eq_ok_iff, hfield, ih]

/-- No two members that are read belong to one field, and none to a field that has been seen. -/
theorem pairwise_of_readMembers {members : List (String × Value)} {seen : List String} {s : σ}
    {r : List String × σ}
    (h : record.readMembers seen s (Value.memberTrees members) = .ok r) :
    members.Pairwise (fun a b => record.field? a.1 ≠ record.field? b.1) ∧
      ∀ member ∈ members, ∀ field, record.field? member.1 = some field → field.name ∉ seen := by
  induction members generalizing seen s with
  | nil => exact ⟨.nil, by simp⟩
  | cons member members ih =>
    obtain ⟨field, hfield, hnew, t, -, hrest⟩ := readMembers_cons_eq_ok_iff.mp h
    obtain ⟨hpairwise, hseen⟩ := ih hrest
    refine ⟨.cons ?_ hpairwise, List.forall_mem_cons.mpr ⟨?_, ?_⟩⟩
    · exact fun other hother heq => hseen other hother field (heq ▸ hfield) (by simp)
    · intro other hother
      obtain rfl := Option.some.inj (hfield.symm.trans hother)
      exact hnew
    · intro other hother field' hfield' hmem
      exact hseen other hother field' hfield' (by simp [hmem])

end Record

/-! ## Texts and values -/

/-- **A text is read as its value is**, if the order of members does not matter and no object has
    two members of one name. -/
theorem decodeText_eq_ok_iff_decodeValue {α : Type} {decode : Decoder α} (hvalue : decode.ByValue)
    (hfree : decode.OrderFree) {text : String} {v : Value}
    (h : (Document.read text.toList).value? = some v) (hv : v.DistinctKeys) {a : α} :
    decodeText decode text = .ok a ↔ decodeValue decode v = .ok a := by
  rw [decodeText_eq_ok_iff hvalue, decodeValue, mapError_eq_ok_iff, h,
    ← hfree.eq_ok_iff (Value.reordered_sorted hv)]
  simp

end FitScript.Json
