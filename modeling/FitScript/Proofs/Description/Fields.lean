import FitScript.Proofs.Description.Reading
import FitScript.Proofs.Json.Places

/-!
# The fields of a description

Which keys the objects inside of a description can have. A description and its random effects have
no other members than their fields; a variable may have others, which are passed over.

* `Description.VariablePlace`, `Description.RandomPlace`: where variables and random effects stand.
* `VariableEntry.ofValue?_filter`: what a variable is read as, its other members do not change.
* `Description.ObjectPlace`: what an object can be, and which keys it can have there.
* `Description.objectPlace_of_occurs`: so is each object in a text that is read as a description.
* `Description.ofJson_misspelt_levels`: a variable with a misspelt key is read without its levels.
-/

namespace FitScript

open Json Json.Value Outcome

/-! ## Variables -/

namespace VariableEntry

/-- The names of the fields of a variable. -/
def fields : List String :=
  ["name", "levels"]

/-- Only the members for its fields count in a variable. -/
theorem ofValue?_filter (members : List (String × Value)) :
    ofValue? (.object (members.filter (·.1 ∈ fields))) = ofValue? (.object members) := by
  have hfilter (name : String) (hname : name ∈ fields) :
      (members.filter (·.1 ∈ fields)).filter (·.1 == name) = members.filter (·.1 == name) := by
    rw [List.filter_filter]
    refine List.filter_congr fun member _ => ?_
    by_cases h : member.1 = name <;> simp [h, hname]
  simp only [ofValue?, levelsOf?, hfilter "name" (by decide), hfilter "levels" (by decide)]

/-- No object occurs in the levels of a variable. -/
theorem not_occurs_of_levelsOf? {others : List (String × Value)} {levels : Option (List String)}
    (h : levelsOf? others = some levels) {x : Value} (hmember : ("levels", x) ∈ others)
    (members : List (String × Value)) : ¬ Occurs (.object members) x := by
  have hx : ("levels", x) ∈ others.filter (·.1 == "levels") :=
    List.mem_filter.mpr ⟨hmember, beq_self_eq_true _⟩
  unfold levelsOf? at h
  split at h
  next hnil =>
    rw [hnil] at hx
    exact absurd hx List.not_mem_nil
  next hnull =>
    rw [hnull, List.mem_singleton, Prod.mk.injEq] at hx
    exact hx.2 ▸ not_occurs_scalar
  next items hitems =>
    rw [hitems, List.mem_singleton, Prod.mk.injEq] at hx
    obtain ⟨texts, htexts, -⟩ := Option.map_eq_some_iff.mp h
    rw [hx.2, textsOf?_eq_some_iff.mp htexts, occurs_array_iff]
    rintro ⟨item, hitem, hoccurs⟩
    obtain ⟨text, -, rfl⟩ := List.mem_map.mp hitem
    exact not_occurs_scalar hoccurs
  next => exact absurd h (by simp)

/-- No object occurs in the fields of a variable. -/
theorem not_occurs_of_mem_fields {others : List (String × Value)} {entry : VariableEntry}
    (h : ofValue? (.object others) = some entry) {name : String} {v : Value}
    (hmember : (name, v) ∈ others) (hname : name ∈ fields) (members : List (String × Value)) :
    ¬ Occurs (.object members) v := by
  simp only [ofValue?] at h
  split at h
  next name' text hfilter =>
    obtain ⟨levels, hlevels, -⟩ := Option.map_eq_some_iff.mp h
    rcases List.mem_pair.mp hname with rfl | rfl
    · have hv : ("name", v) ∈ others.filter (·.1 == "name") :=
        List.mem_filter.mpr ⟨hmember, beq_self_eq_true _⟩
      rw [hfilter, List.mem_singleton, Prod.mk.injEq] at hv
      exact hv.2 ▸ not_occurs_scalar
    · exact not_occurs_of_levelsOf? hlevels hmember members
  next => exact absurd h (by simp)

/-- An object that occurs in a variable is the variable, or occurs in a member that is none of its
    fields. -/
theorem of_occurs {x : Value} {entry : VariableEntry} (h : ofValue? x = some entry)
    {members : List (String × Value)} (hoccurs : Occurs (.object members) x) :
    ∃ others, x = .object others ∧ (members = others ∨
      ∃ member ∈ others, member.1 ∉ fields ∧ Occurs (.object members) member.2) := by
  cases hoccurs with
  | self => exact ⟨members, rfl, .inl rfl⟩
  | item => exact absurd h (by simp [ofValue?])
  | @member v name others hmember hoccurs =>
    refine ⟨others, rfl, .inr ⟨(name, v), hmember, ?_, hoccurs⟩⟩
    exact fun hname => not_occurs_of_mem_fields h hmember hname members hoccurs

end VariableEntry

/-! ## Random effects -/

namespace RandomEntry

/-- The names of the fields of a random effect. -/
def fields : List String :=
  ["group", "slopes"]

/-- The only object that occurs in a random effect is the random effect, and its keys are the names
    of its fields. -/
theorem of_occurs {x : Value} {entry : RandomEntry} (h : record.decoder x.tree = .ok entry)
    {members : List (String × Value)} (hoccurs : Occurs (.object members) x) :
    .object members = x ∧ ∀ member ∈ members, member.1 ∈ fields := by
  have hobject : .object members = x := by
    rcases Record.exists_gives_of_occurs h hoccurs with
      rfl | ⟨field, y, hgives, hoccurs, s, t, hread⟩
    · rfl
    · have htext : Decoder.text.WithoutObjects := Decoder.withoutObjects_named "a string"
      have hfield := hgives.mem_fields
      simp only [record, List.mem_cons, List.not_mem_nil, or_false] at hfield
      obtain rfl | rfl := hfield
      · obtain ⟨group, hgroup, -⟩ := map_eq_ok_iff.mp hread
        exact absurd hoccurs (htext y group hgroup members)
      · obtain ⟨slopes, hslopes, -⟩ := map_eq_ok_iff.mp hread
        exact absurd hoccurs (htext.list Decoder.byValue_text y slopes hslopes members)
  subst hobject
  exact ⟨rfl, Record.keys_of_decoder h⟩

end RandomEntry

/-! ## Descriptions -/

namespace Description

/-- A value stands where the value of a description gives a variable. -/
inductive VariablePlace (v : Value) : Value → Prop where
  | dependent {field : Json.Field Description} {x : Value} (hname : field.name = "dependent")
      (h : record.Gives v field x) : VariablePlace v x
  | independent {field : Json.Field Description} {items : List Value} {x : Value}
      (hname : field.name = "independent") (h : record.Gives v field (.array items))
      (hitem : x ∈ items) : VariablePlace v x

/-- A value stands where the value of a description gives a random effect. -/
inductive RandomPlace (v : Value) : Value → Prop where
  | random {field : Json.Field Description} {items : List Value} {x : Value}
      (hname : field.name = "random") (h : record.Gives v field (.array items))
      (hitem : x ∈ items) : RandomPlace v x

/-- An object that occurs in the value of a field occurs in a variable or a random effect. -/
theorem place_of_occurs {v w : Value} {field : Json.Field Description}
    (hgives : record.Gives v field w) {s t : Description} (hread : field.read w.tree s = .ok t)
    {members : List (String × Value)} (hoccurs : Occurs (.object members) w) :
    (∃ x entry, VariablePlace v x ∧ VariableEntry.ofValue? x = some entry ∧
      Occurs (.object members) x) ∨
    ∃ x entry, RandomPlace v x ∧ RandomEntry.record.decoder x.tree = .ok entry ∧
      Occurs (.object members) x := by
  have htext (expected : String) : (Decoder.named expected).WithoutObjects :=
    Decoder.withoutObjects_named expected
  have htexts : (Decoder.list .text).WithoutObjects := (htext _).list Decoder.byValue_text
  have hfield := hgives.mem_fields
  simp only [record, List.mem_cons, List.not_mem_nil, or_false] at hfield
  obtain rfl | rfl | rfl | rfl | rfl | rfl | rfl | rfl | rfl := hfield
  all_goals obtain ⟨a, ha, -⟩ := map_eq_ok_iff.mp hread
  · exact absurd hoccurs (htext _ w a ha members)
  · exact absurd hoccurs ((htext _).optional w a ha members)
  · rw [Decoder.optional_eq_ok_iff, w.value?_tree] at ha
    rcases ha with ⟨hnull, -⟩ | ⟨-, entry, hentry, -⟩
    · obtain rfl := Option.some.inj hnull
      exact absurd hoccurs not_occurs_scalar
    · exact .inl ⟨w, entry, .dependent rfl hgives,
        VariableEntry.decoder_tree_eq_ok_iff.mp hentry, hoccurs⟩
  · obtain ⟨items, rfl, item, hitem, hoccurs, entry, hentry⟩ :=
      Decoder.exists_item_of_occurs VariableEntry.byValue_decoder ha hoccurs
    exact .inl ⟨item, entry, .independent rfl hgives hitem,
      VariableEntry.decoder_tree_eq_ok_iff.mp hentry, hoccurs⟩
  · exact absurd hoccurs (htexts.list (Decoder.byValue_list Decoder.byValue_text) w a ha members)
  · obtain ⟨items, rfl, item, hitem, hoccurs, entry, hentry⟩ :=
      Decoder.exists_item_of_occurs RandomEntry.byValue_decoder ha hoccurs
    exact .inr ⟨item, entry, .random rfl hgives hitem, hentry, hoccurs⟩
  · exact absurd hoccurs ((htext _).optional w a ha members)
  · exact absurd hoccurs ((htext _).optional w a ha members)
  · exact absurd hoccurs ((htext _).optional w a ha members)

/-- The names of the fields of a description, in their order. -/
def fields : List String :=
  ["schema", "id", "dependent", "dv", "independent", "ivs", "interactions", "random", "family",
   "link", "data"]

/-- What an object inside of the value of a description is. -/
inductive ObjectPlace (v : Value) (members : List (String × Value)) : Prop where
  /-- The description, with no other keys than the names of its fields. -/
  | description (hself : .object members = v) (hkeys : ∀ member ∈ members, member.1 ∈ fields)
  /-- A random effect, with no other keys than the names of its fields. -/
  | random (hplace : RandomPlace v (.object members))
      (hkeys : ∀ member ∈ members, member.1 ∈ RandomEntry.fields)
  /-- A variable, which is read as if it had no other members than its fields. -/
  | variable {entry : VariableEntry} (hplace : VariablePlace v (.object members))
      (hread : VariableEntry.ofValue? (.object members) = some entry)
      (hfields : VariableEntry.ofValue?
        (.object (members.filter (·.1 ∈ VariableEntry.fields))) = some entry)
  /-- Part of another member of a variable. -/
  | besides {others : List (String × Value)} {member : String × Value}
      (hplace : VariablePlace v (.object others)) (hmember : member ∈ others)
      (hname : member.1 ∉ VariableEntry.fields) (hoccurs : Occurs (.object members) member.2)

/-- **Each object in a text that is read as a description** is the description or a random effect,
    with keys that are names of its fields; or it is a variable, of which only the members for its
    fields count; or it occurs in another member of a variable. -/
theorem objectPlace_of_occurs {text : String} {d : Description} (h : ofJson text = .ok d) :
    ∃ v, (Document.read text.toList).value? = some v ∧
      ∀ members, Occurs (.object members) v → ObjectPlace v members := by
  obtain ⟨-, v, hv, hread⟩ := ofJson_eq_ok_iff.mp h
  refine ⟨v, hv, fun members hoccurs => ?_⟩
  rcases Record.exists_gives_of_occurs hread hoccurs with
    rfl | ⟨field, w, hgives, hoccurs, s, t, hfield⟩
  · exact .description rfl (Record.keys_of_decoder hread)
  rcases place_of_occurs hgives hfield hoccurs with
    ⟨x, entry, hplace, hx, hoccurs⟩ | ⟨x, entry, hplace, hx, hoccurs⟩
  · obtain ⟨others, rfl, rfl | ⟨member, hmember, hname, hoccurs⟩⟩ :=
      VariableEntry.of_occurs hx hoccurs
    · exact .variable hplace hx ((VariableEntry.ofValue?_filter members).trans hx)
    · exact .besides hplace hmember hname hoccurs
  · obtain ⟨rfl, hkeys⟩ := RandomEntry.of_occurs hx hoccurs
    exact .random hplace hkeys

/-- A description with each of these objects: itself, a random effect, a variable with another
    member, and an object inside of that. -/
theorem objectPlace_of_occurs_nested :
    let text := "\x7b\"schema\":\"1.0\"," ++
      "\"ivs\":[\x7b\"unit\":\x7b\"kg\":1\x7d,\"name\":\"a\"\x7d]," ++
      "\"random\":[\x7b\"group\":\"g\"\x7d]\x7d"
    ofJson text = .ok { empty with
      independent := [.detailed "a" none], random := [⟨"g", []⟩] } ∧
    ∃ v, (Document.read text.toList).value? = some v ∧
      ∀ members, Occurs (.object members) v → ObjectPlace v members := by
  intro text
  have hread : ofJson text = .ok { empty with
      independent := [.detailed "a" none], random := [⟨"g", []⟩] } := by
    decide +kernel
  exact ⟨hread, objectPlace_of_occurs hread⟩

/-- A variable with a misspelt key is read, and the levels that stand there are lost. -/
theorem ofJson_misspelt_levels :
    let members := [("name", Value.text "y"), ("level", Value.texts ["a"])]
    let v := Value.object [("schema", .text "1.0"), ("dependent", .object members)]
    (Document.read v.pretty.toList).value? = some v ∧
      ofJson v.pretty = .ok { empty with dependent := some (.detailed "y" none) } ∧
      VariablePlace v (.object members) ∧
      ¬ ∀ member ∈ members, member.1 ∈ VariableEntry.fields := by
  intro members v
  have hlevel : (Value.texts ["a"]).Textual 125 :=
    .array (List.forall_mem_singleton.mpr (.text _ _))
  have hvariable : (Value.object members).Textual 126 :=
    .object (List.forall_mem_cons.mpr ⟨.text _ _, List.forall_mem_singleton.mpr hlevel⟩)
  have htextual : v.Textual greatestDepth :=
    .object (List.forall_mem_cons.mpr ⟨.text _ _, List.forall_mem_singleton.mpr hvariable⟩)
  refine ⟨value?_read_pretty htextual, by decide +kernel, ?_, ?_⟩
  · exact .dependent rfl (.member rfl (List.mem_cons_of_mem _ List.mem_cons_self))
  · decide

end Description

end FitScript
