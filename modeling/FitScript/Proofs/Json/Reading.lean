import FitScript.Proofs.Json.Lexemes
import Mathlib.Order.Lattice

/-!
# Reading written values

The text of a value is read as a tree of that value.

* `Document.value?`: the value of a document in which nothing is wrong.
* `Value.Nested`: a value that is nested at most so deep. `Value.induction`: a property of all
  values, from parts to the whole.
* `ReadsValue`: a reader that makes a tree of a value from its tokens, whatever follows them.
* `readsValue_readTree`: trees are read so, as deep as they may be nested.
* `value?_read_pretty`: the text of a value is a document with that value.
-/

namespace FitScript.Json

/-- The value of a document in which nothing is wrong. -/
def Document.value? (document : Document) : Option Value :=
  if document.fault.isNone then document.tree.value? else none

/-! ## Nesting -/

/-- A value whose lists and objects are nested at most `depth` deep. -/
inductive Value.Nested : (depth : Nat) → Value → Prop where
  | scalar (depth : Nat) (s : Scalar) : Nested depth (.scalar s)
  | array {depth : Nat} {items : List Value} (h : ∀ item ∈ items, Nested depth item) :
      Nested (depth + 1) (.array items)
  | object {depth : Nat} {members : List (String × Value)}
      (h : ∀ member ∈ members, Nested depth member.2) : Nested (depth + 1) (.object members)

namespace Value

theorem Textual.nested {depth : Nat} {v : Value} (h : v.Textual depth) : v.Nested depth := by
  induction h with
  | text depth s => exact .scalar depth (.text s)
  | array _ ih => exact .array ih
  | object _ ih => exact .object ih

theorem Nested.mono {depth depth' : Nat} (h : depth ≤ depth') {v : Value} (hv : v.Nested depth) :
    v.Nested depth' := by
  induction hv generalizing depth' with
  | scalar depth s => exact .scalar depth' s
  | array _ ih =>
    cases depth' with
    | zero => omega
    | succ depth' => exact .array fun item hitem => ih item hitem (by omega)
  | object _ ih =>
    cases depth' with
    | zero => omega
    | succ depth' => exact .object fun member hmember => ih member hmember (by omega)

mutual

/-- A value is nested to some depth. -/
theorem exists_nested : ∀ v : Value, ∃ depth, v.Nested depth
  | .scalar s => ⟨0, .scalar 0 s⟩
  | .array items => by
    obtain ⟨depth, h⟩ := exists_nested_items items
    exact ⟨depth + 1, .array h⟩
  | .object members => by
    obtain ⟨depth, h⟩ := exists_nested_members members
    exact ⟨depth + 1, .object h⟩

theorem exists_nested_items :
    ∀ items : List Value, ∃ depth, ∀ item ∈ items, item.Nested depth
  | [] => ⟨0, by simp⟩
  | item :: rest => by
    obtain ⟨a, ha⟩ := exists_nested item
    obtain ⟨b, hb⟩ := exists_nested_items rest
    exact ⟨max a b, List.forall_mem_cons.mpr
      ⟨ha.mono (le_max_left a b), fun other hother => (hb other hother).mono (le_max_right a b)⟩⟩

theorem exists_nested_members :
    ∀ members : List (String × Value), ∃ depth, ∀ member ∈ members, member.2.Nested depth
  | [] => ⟨0, by simp⟩
  | (name, value) :: rest => by
    obtain ⟨a, ha⟩ := exists_nested value
    obtain ⟨b, hb⟩ := exists_nested_members rest
    exact ⟨max a b, List.forall_mem_cons.mpr
      ⟨ha.mono (le_max_left a b), fun other hother => (hb other hother).mono (le_max_right a b)⟩⟩

end

/-- What holds of scalars, and of lists and objects whose parts it holds of, holds of every
    value. -/
@[elab_as_elim]
theorem induction {P : Value → Prop} (scalar : ∀ s, P (.scalar s))
    (array : ∀ items, (∀ item ∈ items, P item) → P (.array items))
    (object : ∀ members, (∀ member ∈ members, P member.2) → P (.object members)) (v : Value) :
    P v := by
  obtain ⟨depth, h⟩ := v.exists_nested
  induction h with
  | scalar _ s => exact scalar s
  | array _ ih => exact array _ ih
  | object _ ih => exact object _ ih

end Value

/-! ## Readers -/

/-- From the tokens of a value, whatever follows them, a reader makes a tree of the value. -/
def ReadsValue (read : List Lexeme → Tree × List Lexeme) (v : Value) : Prop :=
  ∀ lexemes rest, lexemes.map Lexeme.token = v.tokens →
    ∃ tree, read (lexemes ++ rest) = (tree, rest) ∧ tree.value? = some v

/-! ## Lexemes -/

theorem exists_lexeme {lexemes : List Lexeme} {token : Token} {tokens : List Token}
    (h : lexemes.map Lexeme.token = token :: tokens) :
    ∃ start stop others, lexemes = ⟨token, start, stop⟩ :: others ∧
      others.map Lexeme.token = tokens := by
  obtain ⟨⟨_, start, stop⟩, others, rfl, rfl, hothers⟩ := List.map_eq_cons_iff.mp h
  exact ⟨start, stop, others, rfl, hothers⟩

/-- The first token of a value is no closing bracket. -/
theorem Value.exists_tokens_eq_cons (v : Value) :
    ∃ token tokens, v.tokens = token :: tokens ∧ token ≠ .rightBracket := by
  cases v with
  | scalar s => exact ⟨_, _, rfl, by simp⟩
  | array items => exact ⟨_, _, rfl, by simp⟩
  | object members => exact ⟨_, _, rfl, by simp⟩

/-! ## Items -/

section

variable {read : List Lexeme → Tree × List Lexeme} {size : Nat}

theorem readItems_last {lexemes rest : List Lexeme} {tree : Tree} {start stop limit : Nat}
    (h : read lexemes = (tree, ⟨.rightBracket, start, stop⟩ :: rest)) :
    readItems read size (limit + 1) lexemes = ⟨[tree], none, stop, rest⟩ := by
  rw [readItems, h]
  rfl

/-- An item that follows a comma does not start with a closing bracket. -/
theorem readItems_comma {lexemes rest : List Lexeme} {next : Lexeme} {tree : Tree}
    {start stop limit : Nat} (hnext : next.token ≠ .rightBracket)
    (h : read lexemes = (tree, ⟨.comma, start, stop⟩ :: next :: rest)) :
    readItems read size (limit + 1) lexemes =
      (readItems read size limit (next :: rest)).cons tree := by
  obtain ⟨token, _, _⟩ := next
  rw [readItems, h]
  cases token
  case rightBracket => exact absurd rfl hnext
  all_goals rfl

/-- Items and the bracket behind them are read as the items. -/
theorem exists_readItems_eq {items : List Value} (hne : items ≠ [])
    (hread : ∀ item ∈ items, ReadsValue read item) {lexemes rest : List Lexeme} {limit : Nat}
    (hlimit : lexemes.length ≤ limit)
    (htokens : lexemes.map Lexeme.token =
      partTokens (Value.itemTokens items) ++ [.rightBracket]) :
    ∃ trees stop, readItems read size limit (lexemes ++ rest) = ⟨trees, none, stop, rest⟩ ∧
      Tree.itemValues? trees = some items := by
  induction items generalizing lexemes limit with
  | nil => exact absurd rfl hne
  | cons item others ih =>
    rw [Value.itemTokens, partTokens, List.append_assoc] at htokens
    obtain ⟨first, behind, rfl, hfirst, hbehind⟩ := List.map_eq_append_iff.mp htokens
    obtain ⟨tree, htree, hvalue⟩ := hread item (by simp) first (behind ++ rest) hfirst
    have hothers : ∀ other ∈ others, ReadsValue read other := fun other h =>
      hread other (by simp [h])
    rw [List.append_assoc]
    cases others with
    | nil =>
      obtain ⟨start, stop, none, rfl, hnone⟩ := exists_lexeme hbehind
      obtain rfl := List.map_eq_nil_iff.mp hnone
      obtain ⟨limit, rfl⟩ : ∃ n, limit = n + 1 := ⟨limit - 1, by simp at hlimit; omega⟩
      exact ⟨[tree], stop, readItems_last htree, by simp [Tree.itemValues?, hvalue]⟩
    | cons other others =>
      obtain ⟨start, stop, lexemes, rfl, hlexemes⟩ := exists_lexeme hbehind
      obtain ⟨limit, rfl⟩ : ∃ n, limit = n + 1 := ⟨limit - 1, by simp at hlimit; omega⟩
      have hlength : lexemes.length ≤ limit := by simp at hlimit; omega
      obtain ⟨trees, last, htrees, hvalues⟩ := ih (by simp) hothers hlength hlexemes
      obtain ⟨token, tokens, heq, htoken⟩ := other.exists_tokens_eq_cons
      replace hlexemes : lexemes.map Lexeme.token = token :: (tokens ++
          (Value.itemTokens others).flatMap (.comma :: ·) ++ [.rightBracket]) := by
        rw [hlexemes, heq]
        rfl
      obtain ⟨_, _, lexemes, rfl, -⟩ := exists_lexeme hlexemes
      refine ⟨tree :: trees, last, ?_, by simp [Tree.itemValues?, hvalue, hvalues]⟩
      rw [readItems_comma htoken htree]
      exact congrArg (Parts.cons tree) htrees

/-! ## Members -/

/-- A member that the closing brace follows is the last one. -/
theorem exists_readMembers_last {lexemes rest : List Lexeme} {tree : Tree} {start stop : Nat}
    (h : read lexemes = (tree, ⟨.rightBrace, start, stop⟩ :: rest)) (name : String)
    (limit a b c d : Nat) :
    ∃ key : Key, key.name = name ∧ readMembers read size (limit + 1)
      (⟨.scalar (.text name), a, b⟩ :: ⟨.colon, c, d⟩ :: lexemes) =
        ⟨[(key, tree)], none, stop, rest⟩ := by
  refine ⟨⟨name, Place.object.report size b (⟨.colon, c, d⟩ :: lexemes)⟩, rfl, ?_⟩
  rw [readMembers]
  simp only [readMemberValue, h]
  rfl

/-- A member that a comma and another key follow is not the last one. -/
theorem exists_readMembers_comma {lexemes rest : List Lexeme} {tree : Tree} {s : Scalar}
    {start stop start' stop' : Nat}
    (h : read lexemes = (tree, ⟨.comma, start, stop⟩ :: ⟨.scalar s, start', stop'⟩ :: rest))
    (name : String) (limit a b c d : Nat) :
    ∃ key : Key, key.name = name ∧ readMembers read size (limit + 1)
      (⟨.scalar (.text name), a, b⟩ :: ⟨.colon, c, d⟩ :: lexemes) =
        (readMembers read size limit (⟨.scalar s, start', stop'⟩ :: rest)).cons (key, tree) := by
  refine ⟨⟨name, Place.object.report size b (⟨.colon, c, d⟩ :: lexemes)⟩, rfl, ?_⟩
  rw [readMembers]
  simp only [readMemberValue, h]

/-- Members and the brace behind them are read as the members. -/
theorem exists_readMembers_eq {members : List (String × Value)} (hne : members ≠ [])
    (hread : ∀ member ∈ members, ReadsValue read member.2) {lexemes rest : List Lexeme}
    {limit : Nat} (hlimit : lexemes.length ≤ limit)
    (htokens : lexemes.map Lexeme.token =
      partTokens (Value.memberTokens members) ++ [.rightBrace]) :
    ∃ trees stop, readMembers read size limit (lexemes ++ rest) = ⟨trees, none, stop, rest⟩ ∧
      Tree.memberValues? trees = some members := by
  induction members generalizing lexemes limit with
  | nil => exact absurd rfl hne
  | cons member others ih =>
    obtain ⟨name, value⟩ := member
    rw [Value.memberTokens, partTokens, List.cons_append, List.cons_append, List.cons_append,
      List.cons_append, List.append_assoc] at htokens
    obtain ⟨a, b, afterKey, rfl, hafterKey⟩ := exists_lexeme htokens
    obtain ⟨c, d, afterColon, rfl, hafterColon⟩ := exists_lexeme hafterKey
    obtain ⟨first, behind, rfl, hfirst, hbehind⟩ := List.map_eq_append_iff.mp hafterColon
    obtain ⟨tree, htree, hvalue⟩ := hread (name, value) (by simp) first (behind ++ rest) hfirst
    have hothers : ∀ other ∈ others, ReadsValue read other.2 := fun other h =>
      hread other (by simp [h])
    rw [List.cons_append, List.cons_append, List.append_assoc]
    cases others with
    | nil =>
      obtain ⟨start, stop, none, rfl, hnone⟩ := exists_lexeme hbehind
      obtain rfl := List.map_eq_nil_iff.mp hnone
      obtain ⟨limit, rfl⟩ : ∃ n, limit = n + 1 := ⟨limit - 1, by simp at hlimit; omega⟩
      obtain ⟨key, rfl, hkey⟩ := exists_readMembers_last htree name limit a b c d
      exact ⟨[(key, tree)], stop, hkey, by simp [Tree.memberValues?, hvalue]⟩
    | cons other others =>
      obtain ⟨name', value'⟩ := other
      obtain ⟨start, stop, lexemes, rfl, hlexemes⟩ := exists_lexeme hbehind
      obtain ⟨limit, rfl⟩ : ∃ n, limit = n + 1 := ⟨limit - 1, by simp at hlimit; omega⟩
      have hlength : lexemes.length ≤ limit := by simp at hlimit; omega
      obtain ⟨trees, last, htrees, hvalues⟩ := ih (by simp) hothers hlength hlexemes
      obtain ⟨_, _, lexemes, rfl, -⟩ := exists_lexeme hlexemes
      obtain ⟨key, rfl, hkey⟩ := exists_readMembers_comma htree name limit a b c d
      refine ⟨(key, tree) :: trees, last, ?_, by simp [Tree.memberValues?, hvalue, hvalues]⟩
      rw [hkey]
      exact congrArg (Parts.cons (key, tree)) htrees

end

/-! ## Trees -/

section

variable {size depth : Nat}

/-- A list whose bracket no closing bracket follows has items. -/
theorem readTree_leftBracket {next : Lexeme} (hnext : next.token ≠ .rightBracket) {start : Nat}
    {rest after : List Lexeme} {trees : List Tree} {last : Nat}
    (h : readItems (readTree size depth .list) size (next :: rest).length (next :: rest) =
      ⟨trees, none, last, after⟩) (place : Place) (stop : Nat) :
    readTree size (depth + 1) place (⟨.leftBracket, start, stop⟩ :: next :: rest) =
      (.array ⟨start, last, place.report size last after⟩ trees none, after) := by
  obtain ⟨token, _, _⟩ := next
  cases token
  case rightBracket => exact absurd rfl hnext
  all_goals
    rw [readTree]
    · simp only [h]
    all_goals simp

/-- An object whose brace a key follows has members. -/
theorem readTree_leftBrace {s : Scalar} {start a b : Nat} {rest after : List Lexeme}
    {trees : List (Key × Tree)} {last : Nat}
    (h : readMembers (readTree size depth .object) size (rest.length + 1)
      (⟨.scalar s, a, b⟩ :: rest) = ⟨trees, none, last, after⟩) (place : Place) (stop : Nat) :
    readTree size (depth + 1) place (⟨.leftBrace, start, stop⟩ :: ⟨.scalar s, a, b⟩ :: rest) =
      (.object ⟨start, last, place.report size last after⟩ trees none, after) := by
  rw [readTree]
  · simp only [List.length_cons, h]
  all_goals simp

theorem readsValue_array {items : List Value}
    (hread : ∀ item ∈ items, ReadsValue (readTree size depth .list) item) (place : Place) :
    ReadsValue (readTree size (depth + 1) place) (.array items) := by
  intro lexemes rest htokens
  rw [Value.tokens] at htokens
  obtain ⟨start, stop, inside, rfl, hinside⟩ := exists_lexeme htokens
  cases items with
  | nil =>
    obtain ⟨_, _, none, rfl, hnone⟩ := exists_lexeme hinside
    obtain rfl := List.map_eq_nil_iff.mp hnone
    exact ⟨_, rfl, rfl⟩
  | cons item others =>
    obtain ⟨trees, last, htrees, hvalues⟩ : ∃ trees last,
        readItems (readTree size depth .list) size (inside ++ rest).length (inside ++ rest) =
          ⟨trees, none, last, rest⟩ ∧ Tree.itemValues? trees = some (item :: others) :=
      exists_readItems_eq (by simp) hread (by simp) hinside
    obtain ⟨token, tokens, heq, htoken⟩ := item.exists_tokens_eq_cons
    rw [Value.itemTokens, partTokens, heq] at hinside
    obtain ⟨_, _, inside, rfl, -⟩ := exists_lexeme hinside
    exact ⟨_, readTree_leftBracket htoken htrees place stop, by simp [Tree.value?, hvalues]⟩

theorem readsValue_object {members : List (String × Value)}
    (hread : ∀ member ∈ members, ReadsValue (readTree size depth .object) member.2)
    (place : Place) : ReadsValue (readTree size (depth + 1) place) (.object members) := by
  intro lexemes rest htokens
  rw [Value.tokens] at htokens
  obtain ⟨start, stop, inside, rfl, hinside⟩ := exists_lexeme htokens
  cases members with
  | nil =>
    obtain ⟨_, _, none, rfl, hnone⟩ := exists_lexeme hinside
    obtain rfl := List.map_eq_nil_iff.mp hnone
    exact ⟨_, rfl, rfl⟩
  | cons member others =>
    obtain ⟨trees, last, htrees, hvalues⟩ : ∃ trees last,
        readMembers (readTree size depth .object) size (inside ++ rest).length (inside ++ rest) =
          ⟨trees, none, last, rest⟩ ∧ Tree.memberValues? trees = some (member :: others) :=
      exists_readMembers_eq (by simp) hread (by simp) hinside
    obtain ⟨name, value⟩ := member
    rw [Value.memberTokens, partTokens] at hinside
    obtain ⟨_, _, inside, rfl, -⟩ := exists_lexeme hinside
    exact ⟨_, readTree_leftBrace htrees place stop, by simp [Tree.value?, hvalues]⟩

/-- **Trees of values are read from their tokens**, as deep as they may be nested. -/
theorem readsValue_readTree {v : Value} (h : v.Nested depth) (place : Place) :
    ReadsValue (readTree size depth place) v := by
  induction h generalizing place with
  | scalar depth s =>
    intro lexemes rest htokens
    obtain ⟨start, stop, none, rfl, hnone⟩ := exists_lexeme htokens
    obtain rfl := List.map_eq_nil_iff.mp hnone
    exact ⟨.leaf ⟨start, stop, place.report size stop rest⟩ s,
      by rw [List.singleton_append, readTree], rfl⟩
  | array _ ih => exact readsValue_array (fun item hitem => ih item hitem .list) place
  | object _ ih => exact readsValue_object (fun member hmember => ih member hmember .object) place

end

/-! ## Documents -/

/-- **A written value is read back.** -/
theorem value?_read_pretty {v : Value} (h : v.Textual greatestDepth) :
    (Document.read v.pretty.toList).value? = some v := by
  have htokens := (LexesAs.write h 0).map_token_lex
  rw [Value.pretty, String.toList_ofList]
  obtain ⟨tree, htree, hvalue⟩ :=
    readsValue_readTree h.nested .document _ [] htokens
  rw [List.append_nil] at htree
  rw [Document.read, htree]
  exact hvalue

end FitScript.Json
