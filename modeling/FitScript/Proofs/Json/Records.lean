import FitScript.Proofs.Json.Decoding
import FitScript.Proofs.Json.Lexemes

/-!
# Records of written objects

What a record makes of an object whose members were written for its fields.

* `given`: the members of an object of named parts, some of which are not given.
* `Record.Fills`: parts that are read one after another into a value. `Fills.value`,
  `Fills.option` and `Fills.list`: how parts are written so that their fields read them.
* `Record.decoder_given`: an object of such parts is read as the value that they fill.
* `Record.invariant_of_decoder`: what holds of the defaults and is kept by each field holds of
  every value that is read.
-/

namespace FitScript.Json

open Outcome

/-- The members of an object of named parts. -/
def given (parts : List (String × Option Value)) : List (String × Value) :=
  parts.flatMap fun (name, part) => (part.map (name, ·)).toList

/-- A list as a part that is given only with items. -/
def givenList (items : List Value) : Option Value :=
  if items.isEmpty then none else some (.array items)

theorem mem_given_iff {parts : List (String × Option Value)} {member : String × Value} :
    member ∈ given parts ↔ (member.1, some member.2) ∈ parts := by
  simp only [given, List.mem_flatMap, Option.mem_toList, Option.map_eq_some_iff]
  constructor
  · rintro ⟨⟨name, part⟩, hpart, v, rfl, rfl⟩
    exact hpart
  · intro h
    exact ⟨_, h, member.2, rfl, rfl⟩

/-! ## Texts alone -/

section Textual

variable {α : Type} {write : α → Value} {depth : Nat}

theorem textual_given {parts : List (String × Option Value)}
    (h : ∀ part ∈ parts, ∀ v ∈ part.2, v.Textual depth) :
    (Value.object (given parts)).Textual (depth + 1) :=
  .object fun member hmember => h _ (mem_given_iff.mp hmember) member.2 rfl

theorem textual_array_map (h : ∀ a, (write a).Textual depth) (as : List α) :
    (Value.array (as.map write)).Textual (depth + 1) := by
  refine .array fun item hitem => ?_
  obtain ⟨a, -, rfl⟩ := List.mem_map.mp hitem
  exact h a

theorem textual_of_mem_map (h : ∀ a, (write a).Textual depth) (o : Option α) :
    ∀ v ∈ o.map write, v.Textual depth := by
  intro v hv
  obtain ⟨a, -, rfl⟩ := Option.map_eq_some_iff.mp hv
  exact h a

theorem textual_of_mem_givenList (h : ∀ a, (write a).Textual depth) (as : List α) :
    ∀ v ∈ givenList (as.map write), v.Textual (depth + 1) := by
  intro v hv
  cases as with
  | nil => cases hv
  | cons a rest =>
    obtain rfl := Option.some.inj hv
    exact textual_array_map h (a :: rest)

end Textual

theorem Value.textual_texts (depth : Nat) (items : List String) :
    (texts items).Textual (depth + 1) :=
  textual_array_map (.text depth) items

/-! ## Texts and lists -/

theorem Value.text_ne_null (s : String) : text s ≠ .scalar .null := by
  simp [text]

namespace Decoder

theorem named_text (expected s : String) : named expected (Value.text s).tree = .ok s :=
  rfl

theorem text_text (s : String) : text (Value.text s).tree = .ok s :=
  named_text "a string" s

/-- A written list is read back. -/
theorem list_map {α : Type} {decode : Decoder α} {write : α → Value}
    (hwrite : ∀ a, decode (write a).tree = .ok a) (as : List α) :
    list decode (Value.array (as.map write)).tree = .ok as := by
  rw [Value.tree, Value.itemTrees_eq_map, List.map_map]
  refine bind_eq_ok_iff.mpr ⟨as, ?_, rfl⟩
  rw [mapM_eq_ok_iff, List.forall₂_map_left_iff]
  exact List.forall₂_same.mpr fun a _ => hwrite a

theorem list_texts (items : List String) : list text (Value.texts items).tree = .ok items :=
  list_map text_text items

end Decoder

namespace Record

variable {σ α : Type} {record : Record σ}

/-! ## Filling -/

/-- Parts that are read one after another into a value. A part that is not given leaves the value
    as it is. -/
inductive Fills (record : Record σ) : List (String × Option Value) → σ → σ → Prop where
  | nil (s : σ) : Fills record [] s s
  | absent {name : String} {parts : List (String × Option Value)} {s t : σ}
      (h : Fills record parts s t) : Fills record ((name, none) :: parts) s t
  | read {name : String} {field : Field σ} {v : Value} {parts : List (String × Option Value)}
      {s t u : σ} (hfield : record.field? name = some field) (hname : field.name = name)
      (hread : field.read v.tree s = .ok t) (h : Fills record parts t u) :
      Fills record ((name, some v) :: parts) s u

namespace Fills

variable {field : Field σ} {decode : Decoder α} {write : α → Value} {name : String}
  {parts : List (String × Option Value)} {s t : σ}

/-- A part that is always given. -/
theorem value {set : α → σ → σ} {v : Value} {a : α} (hwrite : decode v.tree = .ok a)
    (hfield : record.field? name = some field) (hname : field.name = name)
    (hread : field.read = (Field.of name decode set).read) (h : Fills record parts (set a s) t) :
    Fills record ((name, some v) :: parts) s t := by
  refine .read hfield hname ?_ h
  rw [hread, Field.of]
  exact map_eq_ok_iff.mpr ⟨a, hwrite, rfl⟩

/-- A part that is given if there is a value. -/
theorem option {set : Option α → σ → σ} (hwrite : ∀ a, decode (write a).tree = .ok a)
    (hnull : ∀ a, write a ≠ .scalar .null) (o : Option α)
    (hfield : record.field? name = some field) (hname : field.name = name)
    (hread : field.read = (Field.of name (.optional decode) set).read) (hnone : set none s = s)
    (h : Fills record parts (set o s) t) : Fills record ((name, o.map write) :: parts) s t := by
  cases o with
  | none => exact .absent (hnone ▸ h)
  | some a =>
    refine value (Decoder.optional_eq_ok_iff.mpr (.inr ⟨?_, a, hwrite a, rfl⟩)) hfield hname hread h
    rw [Value.value?_tree]
    exact fun heq => hnull a (Option.some.inj heq)

/-- A part that is given if there are items. -/
theorem list {set : List α → σ → σ}
    (hwrite : ∀ a, decode (write a).tree = .ok a) (as : List α)
    (hfield : record.field? name = some field) (hname : field.name = name)
    (hread : field.read = (Field.of name (.list decode) set).read) (hnil : set [] s = s)
    (h : Fills record parts (set as s) t) :
    Fills record ((name, givenList (as.map write)) :: parts) s t := by
  cases as with
  | nil => exact .absent (hnil ▸ h)
  | cons a rest => exact value (Decoder.list_map hwrite _) hfield hname hread h

end Fills

/-- Parts with different names are read as members of an object. -/
theorem Fills.readMembers_given {parts : List (String × Option Value)} {s t : σ}
    (h : Fills record parts s t) (hnodup : (parts.map (·.1)).Nodup) {seen : List String}
    (hnew : ∀ part ∈ parts, part.1 ∉ seen) :
    ∃ after, record.readMembers seen s (Value.memberTrees (given parts)) = .ok (after, t) ∧
      (∀ name ∈ seen, name ∈ after) ∧ ∀ part ∈ parts, part.2.isSome → part.1 ∈ after := by
  induction h generalizing seen with
  | nil s => exact ⟨seen, rfl, fun _ h => h, by simp⟩
  | absent _ ih =>
    rw [List.map_cons, List.nodup_cons] at hnodup
    obtain ⟨after, hread, hseen, hgiven⟩ :=
      ih hnodup.2 fun part hpart => hnew part (by simp [hpart])
    refine ⟨after, hread, hseen, ?_⟩
    intro part hpart hsome
    rcases List.mem_cons.mp hpart with rfl | hpart
    · exact absurd hsome (by simp)
    · exact hgiven part hpart hsome
  | @read name field v parts s t u hfield hname hread _ ih =>
    subst hname
    rw [List.map_cons, List.nodup_cons] at hnodup
    have hnew' : ∀ part ∈ parts, part.1 ∉ field.name :: seen := by
      intro part hpart
      rw [List.mem_cons, not_or]
      refine ⟨?_, hnew part (by simp [hpart])⟩
      intro heq
      exact hnodup.1 (List.mem_map.mpr ⟨part, hpart, heq⟩)
    obtain ⟨after, hrest, hseen, hgiven⟩ := ih hnodup.2 hnew'
    refine ⟨after, ?_, fun name hname => hseen name (by simp [hname]), ?_⟩
    · exact readMembers_cons_eq_ok_iff.mpr
        ⟨field, hfield, hnew (field.name, some v) (by simp), t, hread, hrest⟩
    · intro part hpart hsome
      rcases List.mem_cons.mp hpart with rfl | hpart
      · exact hseen field.name (by simp)
      · exact hgiven part hpart hsome

/-- **An object of parts is read as the value that they fill**, if no required field is missing. -/
theorem decoder_given {parts : List (String × Option Value)} {s : σ}
    (h : Fills record parts record.initial s) (hnodup : (parts.map (·.1)).Nodup)
    (hrequired : ∀ field ∈ record.fields, field.required →
      ∃ part ∈ parts, part.1 = field.name ∧ part.2.isSome) :
    record.decoder (Value.object (given parts)).tree = .ok s := by
  obtain ⟨after, hread, -, hgiven⟩ := h.readMembers_given hnodup fun _ _ => List.not_mem_nil
  refine readObject_eq_ok_iff.mpr ⟨rfl, after, hread, ?_⟩
  intro field hfield hreq
  obtain ⟨part, hpart, hname, hsome⟩ := hrequired field hfield hreq
  exact hname ▸ hgiven part hpart hsome

end Record

/-! ## Invariants -/

section Invariants

variable {σ α : Type} {P : σ → Prop}

/-- A field that keeps a property of the value it is read into. -/
def Field.Keeps (P : σ → Prop) (field : Field σ) : Prop :=
  ∀ tree s t, P s → field.read tree s = .ok t → P t

theorem Field.keeps_of {decode : Decoder α} {set : α → σ → σ} (hset : ∀ a s, P s → P (set a s))
    (name : String) : (Field.of name decode set).Keeps P := by
  intro tree s t hs h
  obtain ⟨a, -, rfl⟩ := map_eq_ok_iff.mp h
  exact hset a s hs

theorem Field.Keeps.mandatory {field : Field σ} (h : field.Keeps P) : field.mandatory.Keeps P :=
  h

theorem Field.Keeps.orNamed {field : Field σ} (h : field.Keeps P) (other : String) :
    (field.orNamed other).Keeps P :=
  h

namespace Record

variable {record : Record σ}

theorem invariant_of_readMembers (hkeeps : ∀ field ∈ record.fields, field.Keeps P)
    {members : List (Key × Tree)} {seen : List String} {s : σ} {r : List String × σ} (hs : P s)
    (h : record.readMembers seen s members = .ok r) : P r.2 := by
  induction members generalizing seen s with
  | nil =>
    obtain rfl := Except.ok.inj h
    exact hs
  | cons member rest ih =>
    obtain ⟨field, hfield, -, t, ht, hrest⟩ := readMembers_cons_eq_ok_iff.mp h
    exact ih (hkeeps field (mem_fields_of_field? hfield) member.2 s t hs ht) hrest

theorem invariant_of_readItems {fields : List (Field σ)}
    (hkeeps : ∀ field ∈ fields, field.Keeps P) {span : Span} {fault : Option Fault}
    {total count last : Nat} {items : List Tree} {s t : σ} (hs : P s)
    (h : record.readItems span fault total fields count last s items = .ok t) : P t := by
  induction fields generalizing s items fault count last with
  | nil =>
    obtain ⟨-, -, rfl⟩ := readItems_nil_eq_ok_iff.mp h
    exact hs
  | cons field fields ih =>
    have hfields : ∀ other ∈ fields, other.Keeps P := fun other hother =>
      hkeeps other (by simp [hother])
    cases items with
    | nil => exact ih hfields hs (readItems_missing_eq_ok_iff.mp h).2.2
    | cons item rest =>
      obtain ⟨u, hu, hrest⟩ := readItems_cons_eq_ok_iff.mp h
      exact ih hfields (hkeeps field (by simp) item s u hs hu) hrest

/-- **What holds of the defaults and is kept by each field holds of every value that is read.** -/
theorem invariant_of_decoder (hkeeps : ∀ field ∈ record.fields, field.Keeps P)
    (hinitial : P record.initial) {tree : Tree} {s : σ} (h : record.decoder tree = .ok s) :
    P s := by
  cases tree with
  | leaf span t => exact absurd h (by simp [decoder])
  | broken fault => exact absurd h (by simp [decoder])
  | object span members fault =>
    obtain ⟨-, seen, hmembers, -⟩ := readObject_eq_ok_iff.mp h
    exact invariant_of_readMembers hkeeps hinitial hmembers
  | array span items fault => exact invariant_of_readItems hkeeps hinitial h

end Record

end Invariants

end FitScript.Json
