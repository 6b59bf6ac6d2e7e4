import FitScript.Proofs.Json.Decoding
import FitScript.Proofs.Json.Spelling

/-!
# Texts of values

Which texts have a value: those that spell its tokens, if it is not nested too deep.

* `Value.Spells`: a text spells a value.
* `readsOnly_readTree`: a tree of a value is read from the tokens of the value.
* `value?_read_iff`: a text has a value iff it spells it, and the value is not nested too deep.
* `Value.Spells.unique`: a text spells at most one value.
-/

namespace FitScript.Json

/-! ## Trees -/

/-- A reader makes trees of values from the tokens of the values alone; the values satisfy `P`. -/
def ReadsOnly (read : List Lexeme → Tree × List Lexeme) (P : Value → Prop) : Prop :=
  ∀ lexemes v, (read lexemes).1.value? = some v →
    P v ∧ ∃ first, lexemes = first ++ (read lexemes).2 ∧ first.map Lexeme.token = v.tokens

theorem Value.itemTokens_eq_map (items : List Value) : itemTokens items = items.map tokens := by
  induction items with
  | nil => rfl
  | cons item rest ih => rw [itemTokens, ih, List.map_cons]

theorem Value.memberTokens_eq_map (members : List (String × Value)) :
    memberTokens members =
      members.map fun member => .scalar (.text member.1) :: .colon :: member.2.tokens := by
  induction members with
  | nil => rfl
  | cons member rest ih => rw [memberTokens, ih, List.map_cons]

theorem partTokens_cons {part : List Token} {parts : List (List Token)} (h : parts ≠ []) :
    partTokens (part :: parts) = part ++ .comma :: partTokens parts := by
  cases parts with
  | nil => exact absurd rfl h
  | cons next parts => rfl

section

variable {read : List Lexeme → Tree × List Lexeme} {P : Value → Prop} {size : Nat}

/-- Where items end without a fault, a bracket follows the first item, or a comma and more
    items. -/
theorem readItems_cases {limit : Nat} {lexemes : List Lexeme}
    (h : (readItems read size (limit + 1) lexemes).fault = none) :
    (∃ start stop rest, (read lexemes).2 = ⟨.rightBracket, start, stop⟩ :: rest ∧
      readItems read size (limit + 1) lexemes = ⟨[(read lexemes).1], none, stop, rest⟩) ∨
    ∃ start stop others, (read lexemes).2 = ⟨.comma, start, stop⟩ :: others ∧
      readItems read size (limit + 1) lexemes =
        (readItems read size limit others).cons (read lexemes).1 := by
  rcases hread : read lexemes with ⟨tree, rest⟩
  rw [readItems, hread] at h
  rcases rest with _ | ⟨⟨token, start, stop⟩, rest⟩
  · cases h
  cases token
  case rightBracket => exact .inl ⟨start, stop, rest, rfl, readItems_last hread⟩
  case comma =>
    rcases rest with _ | ⟨next, rest⟩
    · cases h
    by_cases hnext : next.token = .rightBracket
    · obtain ⟨_, _, _⟩ := next
      obtain rfl := hnext
      cases h
    · exact .inr ⟨start, stop, next :: rest, rfl, readItems_comma hnext hread⟩
  all_goals cases h

/-- Items that are read stand there with commas between them and a bracket behind them. -/
theorem tokens_of_readItems (hread : ReadsOnly read P) {limit : Nat} {lexemes : List Lexeme}
    {values : List Value} (hfault : (readItems read size limit lexemes).fault = none)
    (hvalues : List.Forall₂ (fun t v => t.value? = some v)
      (readItems read size limit lexemes).parts values) :
    values ≠ [] ∧ (∀ v ∈ values, P v) ∧
      ∃ first, lexemes = first ++ (readItems read size limit lexemes).rest ∧
        first.map Lexeme.token = partTokens (Value.itemTokens values) ++ [.rightBracket] := by
  induction limit generalizing lexemes values with
  | zero => cases hfault
  | succ limit ih =>
    rcases readItems_cases hfault with
      ⟨start, stop, rest, hrest, heq⟩ | ⟨start, stop, others, hrest, heq⟩
    · rw [heq] at hvalues ⊢
      obtain ⟨v, _, hv, hnil, rfl⟩ := List.forall₂_cons_left_iff.mp hvalues
      obtain rfl := List.forall₂_nil_left_iff.mp hnil
      obtain ⟨hP, first, hfirst, htokens⟩ := hread lexemes v hv
      refine ⟨by simp, by simpa using hP, first ++ [⟨.rightBracket, start, stop⟩], ?_, ?_⟩
      · rw [hfirst, hrest, List.append_assoc]
        rfl
      · rw [List.map_append, htokens]
        simp [Value.itemTokens, partTokens]
    · rw [heq] at hfault hvalues ⊢
      obtain ⟨v, values, hv, hothers, rfl⟩ := List.forall₂_cons_left_iff.mp hvalues
      obtain ⟨hP, first, hfirst, htokens⟩ := hread lexemes v hv
      obtain ⟨hne, hall, behind, hbehind, hbehindTokens⟩ := ih hfault hothers
      refine ⟨by simp, List.forall_mem_cons.mpr ⟨hP, hall⟩,
        first ++ ⟨.comma, start, stop⟩ :: behind, ?_, ?_⟩
      · conv_lhs => rw [hfirst, hrest, hbehind]
        rw [List.append_assoc]
        rfl
      · rw [List.map_append, htokens, List.map_cons, hbehindTokens, Value.itemTokens,
          partTokens_cons (by simpa [Value.itemTokens_eq_map] using hne), List.append_assoc]
        rfl

/-- Where members end without a fault, a brace follows the first member, or a comma and more
    members. -/
theorem readMembers_cases {limit : Nat} {lexemes : List Lexeme}
    (h : (readMembers read size (limit + 1) lexemes).fault = none) :
    ∃ key a b c d inside,
      lexemes = ⟨.scalar (.text (Key.name key)), a, b⟩ :: ⟨.colon, c, d⟩ :: inside ∧
        ((∃ start stop rest, (read inside).2 = ⟨.rightBrace, start, stop⟩ :: rest ∧
          readMembers read size (limit + 1) lexemes =
            ⟨[(key, (read inside).1)], none, stop, rest⟩) ∨
        ∃ start stop others, (read inside).2 = ⟨.comma, start, stop⟩ :: others ∧
          readMembers read size (limit + 1) lexemes =
            (readMembers read size limit others).cons (key, (read inside).1)) := by
  rcases lexemes with _ | ⟨⟨token, a, b⟩, lexemes⟩
  · cases h
  cases token
  case scalar s =>
    cases s
    case text name =>
      rcases lexemes with _ | ⟨⟨token, c, d⟩, inside⟩
      · cases h
      cases token
      case colon =>
        refine ⟨⟨name, Place.object.report size b (⟨.colon, c, d⟩ :: inside)⟩, a, b, c, d, inside,
          rfl, ?_⟩
        rcases hread : read inside with ⟨tree, rest⟩
        rw [readMembers] at h ⊢
        simp only [readMemberValue, hread] at h ⊢
        rcases rest with _ | ⟨⟨token, start, stop⟩, rest⟩
        · cases h
        cases token
        case rightBrace => exact .inl ⟨start, stop, rest, rfl, rfl⟩
        case comma =>
          refine .inr ⟨start, stop, rest, rfl, ?_⟩
          rcases rest with _ | ⟨⟨token, _, _⟩, rest⟩
          · cases h
          cases token
          case rightBrace => cases h
          all_goals rfl
        all_goals cases h
      all_goals cases h
    all_goals cases h
  all_goals cases h

/-- Members that are read stand there with commas between them and a brace behind them. -/
theorem tokens_of_readMembers (hread : ReadsOnly read P) {limit : Nat} {lexemes : List Lexeme}
    {values : List (String × Value)} (hfault : (readMembers read size limit lexemes).fault = none)
    (hvalues : List.Forall₂ (fun t v => t.1.name = v.1 ∧ t.2.value? = some v.2)
      (readMembers read size limit lexemes).parts values) :
    values ≠ [] ∧ (∀ v ∈ values, P v.2) ∧
      ∃ first, lexemes = first ++ (readMembers read size limit lexemes).rest ∧
        first.map Lexeme.token = partTokens (Value.memberTokens values) ++ [.rightBrace] := by
  induction limit generalizing lexemes values with
  | zero => cases hfault
  | succ limit ih =>
    obtain ⟨key, a, b, c, d, inside, rfl,
      ⟨start, stop, rest, hrest, heq⟩ | ⟨start, stop, others, hrest, heq⟩⟩ :=
        readMembers_cases hfault
    · rw [heq] at hvalues ⊢
      obtain ⟨⟨name, v⟩, _, ⟨rfl, hv⟩, hnil, rfl⟩ := List.forall₂_cons_left_iff.mp hvalues
      obtain rfl := List.forall₂_nil_left_iff.mp hnil
      obtain ⟨hP, first, hfirst, htokens⟩ := hread inside v hv
      refine ⟨by simp, by simpa using hP, ⟨.scalar (.text key.name), a, b⟩ :: ⟨.colon, c, d⟩ ::
        (first ++ [⟨.rightBrace, start, stop⟩]), ?_, ?_⟩
      · conv_lhs => rw [hfirst, hrest]
        simp
      · rw [List.map_cons, List.map_cons, List.map_append, htokens]
        simp [Value.memberTokens, partTokens]
    · rw [heq] at hfault hvalues ⊢
      obtain ⟨⟨name, v⟩, values, ⟨rfl, hv⟩, hothers, rfl⟩ := List.forall₂_cons_left_iff.mp hvalues
      obtain ⟨hP, first, hfirst, htokens⟩ := hread inside v hv
      obtain ⟨hne, hall, behind, hbehind, hbehindTokens⟩ := ih hfault hothers
      refine ⟨by simp, List.forall_mem_cons.mpr ⟨hP, hall⟩,
        ⟨.scalar (.text key.name), a, b⟩ :: ⟨.colon, c, d⟩ ::
          (first ++ ⟨.comma, start, stop⟩ :: behind), ?_, ?_⟩
      · conv_lhs => rw [hfirst, hrest, hbehind]
        simp [Parts.cons]
      · rw [List.map_cons, List.map_cons, List.map_append, htokens, List.map_cons, hbehindTokens,
          Value.memberTokens, partTokens_cons (by simpa [Value.memberTokens_eq_map] using hne)]
        simp

end

section

variable {size depth start stop : Nat} {place : Place}

/-- A list is empty, or its items are read. -/
theorem readTree_leftBracket_cases {lexemes : List Lexeme} {v : Value}
    (h : (readTree size (depth + 1) place (⟨.leftBracket, start, stop⟩ :: lexemes)).1.value? =
      some v) :
    (∃ a b rest, lexemes = ⟨.rightBracket, a, b⟩ :: rest ∧ v = .array [] ∧
      (readTree size (depth + 1) place (⟨.leftBracket, start, stop⟩ :: lexemes)).2 = rest) ∨
    ∃ limit values, v = .array values ∧
      (readItems (readTree size depth .list) size limit lexemes).fault = none ∧
      List.Forall₂ (fun t v => t.value? = some v)
        (readItems (readTree size depth .list) size limit lexemes).parts values ∧
      (readTree size (depth + 1) place (⟨.leftBracket, start, stop⟩ :: lexemes)).2 =
        (readItems (readTree size depth .list) size limit lexemes).rest := by
  rcases lexemes with _ | ⟨⟨token, a, b⟩, rest⟩
  · cases h
  cases token
  case rightBracket =>
    cases h
    exact .inl ⟨a, b, rest, rfl, rfl, rfl⟩
  all_goals
    obtain ⟨hfault, values, hvalues, rfl⟩ := Tree.value?_array_iff.mp h
    exact .inr ⟨_, values, rfl, hfault, hvalues, rfl⟩

/-- An object is empty, or its members are read. -/
theorem readTree_leftBrace_cases {lexemes : List Lexeme} {v : Value}
    (h : (readTree size (depth + 1) place (⟨.leftBrace, start, stop⟩ :: lexemes)).1.value? =
      some v) :
    (∃ a b rest, lexemes = ⟨.rightBrace, a, b⟩ :: rest ∧ v = .object [] ∧
      (readTree size (depth + 1) place (⟨.leftBrace, start, stop⟩ :: lexemes)).2 = rest) ∨
    ∃ limit values, v = .object values ∧
      (readMembers (readTree size depth .object) size limit lexemes).fault = none ∧
      List.Forall₂ (fun t v => t.1.name = v.1 ∧ t.2.value? = some v.2)
        (readMembers (readTree size depth .object) size limit lexemes).parts values ∧
      (readTree size (depth + 1) place (⟨.leftBrace, start, stop⟩ :: lexemes)).2 =
        (readMembers (readTree size depth .object) size limit lexemes).rest := by
  rcases lexemes with _ | ⟨⟨token, a, b⟩, rest⟩
  · cases h
  cases token
  case rightBrace =>
    cases h
    exact .inl ⟨a, b, rest, rfl, rfl, rfl⟩
  all_goals
    obtain ⟨hfault, values, hvalues, rfl⟩ := Tree.value?_object_iff.mp h
    exact .inr ⟨_, values, rfl, hfault, hvalues, rfl⟩

end

/-- **A tree of a value is read from the tokens of the value alone.** -/
theorem readsOnly_readTree (size depth : Nat) (place : Place) :
    ReadsOnly (readTree size depth place) (Value.Nested depth) := by
  induction depth using Nat.strong_induction_on generalizing place with
  | _ depth ih =>
  intro lexemes v hv
  rcases lexemes with _ | ⟨⟨token, start, stop⟩, lexemes⟩
  · rw [readTree] at hv
    cases hv
  cases token
  case scalar s =>
    have hread : readTree size depth place (⟨.scalar s, start, stop⟩ :: lexemes) =
        (.leaf ⟨start, stop, place.report size stop lexemes⟩ s, lexemes) := by
      rw [readTree]
    rw [hread] at hv ⊢
    cases hv
    exact ⟨.scalar depth s, [⟨.scalar s, start, stop⟩], rfl, rfl⟩
  case leftBracket =>
    rcases depth with _ | depth
    · cases hv
    rcases readTree_leftBracket_cases hv with
      ⟨a, b, rest, rfl, rfl, hrest⟩ | ⟨limit, values, rfl, hfault, hvalues, hrest⟩
    · exact ⟨.array (by simp), [⟨.leftBracket, start, stop⟩, ⟨.rightBracket, a, b⟩],
        by rw [hrest]; rfl, rfl⟩
    · obtain ⟨-, hnested, first, hfirst, htokens⟩ :=
        tokens_of_readItems (ih depth (Nat.lt_succ_self depth) .list) hfault hvalues
      refine ⟨.array hnested, ⟨.leftBracket, start, stop⟩ :: first, ?_, ?_⟩
      · rw [hrest, List.cons_append, ← hfirst]
      · rw [List.map_cons, htokens, Value.tokens]
  case leftBrace =>
    rcases depth with _ | depth
    · cases hv
    rcases readTree_leftBrace_cases hv with
      ⟨a, b, rest, rfl, rfl, hrest⟩ | ⟨limit, values, rfl, hfault, hvalues, hrest⟩
    · exact ⟨.object (by simp), [⟨.leftBrace, start, stop⟩, ⟨.rightBrace, a, b⟩],
        by rw [hrest]; rfl, rfl⟩
    · obtain ⟨-, hnested, first, hfirst, htokens⟩ :=
        tokens_of_readMembers (ih depth (Nat.lt_succ_self depth) .object) hfault hvalues
      refine ⟨.object hnested, ⟨.leftBrace, start, stop⟩ :: first, ?_, ?_⟩
      · rw [hrest, List.cons_append, ← hfirst]
      · rw [List.map_cons, htokens, Value.tokens]
  all_goals
    rw [readTree] at hv
    · cases hv
    all_goals simp

/-! ## Documents -/

/-- The tokens of a document that has a value are those of the value. -/
theorem value?_read_iff_tokens {cs : List Char} {v : Value} :
    (Document.read cs).value? = some v ↔
      (lex cs).map Lexeme.token = v.tokens ∧ v.Nested greatestDepth := by
  constructor
  · intro h
    have hread := readsOnly_readTree (byteLength cs) greatestDepth .document (lex cs) v
    rw [Document.read] at h
    generalize readTree (byteLength cs) greatestDepth .document (lex cs) = r at h hread
    obtain ⟨tree, _ | ⟨lexeme, rest⟩⟩ := r
    · obtain ⟨hnested, first, hfirst, htokens⟩ := hread h
      rw [List.append_nil] at hfirst
      exact ⟨hfirst ▸ htokens, hnested⟩
    · cases h
  · rintro ⟨htokens, hnested⟩
    have hreads : ReadsValue (readTree (byteLength cs) greatestDepth .document) v :=
      readsValue_readTree hnested .document
    obtain ⟨tree, htree, hvalue⟩ := hreads _ [] htokens
    rw [List.append_nil] at htree
    rw [Document.read, htree]
    exact hvalue

/-! ## Tokens of values -/

/-- Tokens that can be read from their spellings: they are sound, and no two scalars are
    neighbours. -/
structure Readable (tokens : List Token) : Prop where
  sound : ∀ token ∈ tokens, token.isSound
  separated : Separated tokens

namespace Readable

variable {ts us : List Token}

theorem append (ht : Readable ts) (hu : Readable us)
    (hhead : ∀ token ∈ us.head?, token.isScalar = false) : Readable (ts ++ us) where
  sound := by
    intro token htoken
    rcases List.mem_append.mp htoken with h | h
    · exact ht.sound token h
    · exact hu.sound token h
  separated := ht.separated.append hu.separated fun _ _ token htoken _ => hhead token htoken

/-- A token that is no scalar may stand before any token. -/
theorem cons {token : Token} (hsound : token.isSound) (hscalar : token.isScalar = false)
    (h : Readable ts) : Readable (token :: ts) where
  sound := List.forall_mem_cons.mpr ⟨hsound, h.sound⟩
  separated := List.isChain_cons.mpr
    ⟨fun _ _ hs => absurd hs (by simp [hscalar]), h.separated⟩

theorem singleton {token : Token} (hsound : token.isSound) : Readable [token] where
  sound := by simpa using hsound
  separated := List.isChain_singleton token

/-- Parts with commas between them and a mark behind them. -/
theorem parts {parts : List (List Token)} {last : Token} (hsound : last.isSound)
    (hscalar : last.isScalar = false) (h : ∀ part ∈ parts, Readable part) :
    Readable (partTokens parts ++ [last]) := by
  have hlast : Readable [last] := singleton hsound
  have hbehind : ∀ parts : List (List Token), (∀ part ∈ parts, Readable part) →
      Readable (parts.flatMap (.comma :: ·) ++ [last]) ∧
        ∀ token ∈ (parts.flatMap (.comma :: ·) ++ [last]).head?, token.isScalar = false := by
    intro parts hparts
    induction parts with
    | nil => exact ⟨hlast, by simpa using hscalar⟩
    | cons part parts ih =>
      obtain ⟨hpart, hparts⟩ := List.forall_mem_cons.mp hparts
      obtain ⟨hread, hhead⟩ := ih hparts
      rw [List.flatMap_cons, List.append_assoc]
      exact ⟨.cons rfl rfl (hpart.append hread hhead), by simp [Token.isScalar]⟩
  cases parts with
  | nil => exact hlast
  | cons part parts =>
    obtain ⟨hpart, hparts⟩ := List.forall_mem_cons.mp h
    obtain ⟨hread, hhead⟩ := hbehind parts hparts
    rw [partTokens, List.append_assoc]
    exact hpart.append hread hhead

end Readable

namespace Value

theorem readable_tokens (v : Value) : Readable v.tokens := by
  induction v using Value.induction with
  | scalar s => exact .singleton rfl
  | array items ih =>
    refine .cons rfl rfl (.parts rfl rfl ?_)
    rw [itemTokens_eq_map, List.forall_mem_map]
    exact ih
  | object members ih =>
    refine .cons rfl rfl (.parts rfl rfl ?_)
    rw [memberTokens_eq_map, List.forall_mem_map]
    intro member hmember
    exact (Readable.singleton rfl).append (.cons rfl rfl (ih member hmember))
      (by simp [Token.isScalar])

/-! ## Texts -/

/-- A text spells a value: it is made up of the tokens of the value, with gaps around them. -/
def Spells (v : Value) (text : List Char) : Prop :=
  Spelled v.tokens text

theorem spells_iff {v : Value} {text : List Char} :
    v.Spells text ↔ (lex text).map Lexeme.token = v.tokens :=
  (map_token_lex_iff_spelled v.readable_tokens.sound v.readable_tokens.separated).symm

end Value

/-- **A text has a value iff it spells it**, and the value is not nested too deep. -/
theorem value?_read_iff {text : List Char} {v : Value} :
    (Document.read text).value? = some v ↔ v.Spells text ∧ v.Nested greatestDepth := by
  rw [value?_read_iff_tokens, Value.spells_iff]

/-- **A text spells at most one value.** -/
theorem Value.Spells.unique {text : List Char} {v w : Value} (hv : v.Spells text)
    (hw : w.Spells text) : v = w := by
  obtain ⟨a, ha⟩ := v.exists_nested
  obtain ⟨b, hb⟩ := w.exists_nested
  -- One reader makes a tree of both.
  have hreads : ReadsValue (readTree 0 (max a b) .document) v :=
    readsValue_readTree (ha.mono (le_max_left a b)) .document
  have hreads' : ReadsValue (readTree 0 (max a b) .document) w :=
    readsValue_readTree (hb.mono (le_max_right a b)) .document
  obtain ⟨tree, htree, hvalue⟩ := hreads _ [] (spells_iff.mp hv)
  obtain ⟨tree', htree', hvalue'⟩ := hreads' _ [] (spells_iff.mp hw)
  obtain ⟨rfl, -⟩ := Prod.mk.inj (htree.symm.trans htree')
  exact Option.some.inj (hvalue.symm.trans hvalue')

end FitScript.Json
