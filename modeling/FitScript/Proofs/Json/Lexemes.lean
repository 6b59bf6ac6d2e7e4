import FitScript.Json.Printer
import FitScript.Json.Tree
import Mathlib.Data.List.Forall2

/-!
# Lexemes of written values

A written value is lexed as its tokens, whatever follows it.

* `LexesAs`: characters that are lexed as some tokens.
* `Value.tokens`: the tokens of a value. `Value.Textual`: a value of texts alone.
* `readText_flatMap`: a text is read back up to its closing quote.
* `LexesAs.write`: a written value is lexed as its tokens, at every level of indentation.
-/

namespace FitScript.Json

theorem hexValue?_digitChar : ∀ d < 16, hexValue? (Nat.digitChar d) = some d := by
  decide

theorem utf8Size_digitChar : ∀ d < 16, (Nat.digitChar d).utf8Size = 1 := by
  decide

theorem hexWord?_digitChars {code : Nat} (h : code < 0x100) :
    hexWord? '0' '0' (Nat.digitChar (code / 16)) (Nat.digitChar (code % 16)) = some code := by
  have hzero : hexValue? '0' = some 0 := rfl
  have hhigh := hexValue?_digitChar (code / 16) (by omega)
  have hlow := hexValue?_digitChar (code % 16) (by omega)
  simp only [hexWord?, hzero, hhigh, hlow, Option.bind_eq_bind, Option.bind_some, Option.pure_def,
    Option.some.injEq]
  omega

/-- What stands for a character is read as this character. -/
theorem readText_escapeChar (offset : Nat) (c : Char) (rest : List Char) :
    readText offset (escapeChar c ++ rest) =
      (readText (offset + byteLength (escapeChar c)) rest).map
        fun (cs, after) => (c :: cs, after) := by
  unfold escapeChar
  by_cases hquote : c = '"'
  · subst hquote
    rfl
  by_cases hslash : c = '\\'
  · subst hslash
    rfl
  by_cases hb : c = '\x08'
  · subst hb
    rfl
  by_cases hf : c = '\x0C'
  · subst hf
    rfl
  by_cases hn : c = '\n'
  · subst hn
    rfl
  by_cases hr : c = '\r'
  · subst hr
    rfl
  by_cases ht : c = '\t'
  · subst ht
    rfl
  rw [if_neg hquote, if_neg hslash, if_neg hb, if_neg hf, if_neg hn, if_neg hr, if_neg ht]
  by_cases hcontrol : c.toNat < 0x20
  · have hlength : byteLength ['\\', 'u', '0', '0', Nat.digitChar (c.toNat / 16),
        Nat.digitChar (c.toNat % 16)] = 6 := by
      simp only [byteLength, List.foldr, utf8Size_digitChar (c.toNat / 16) (by omega),
        utf8Size_digitChar (c.toNat % 16) (by omega)]
      rfl
    rw [if_pos hcontrol, hlength]
    show readText offset ('\\' :: 'u' :: '0' :: '0' :: _ :: _ :: rest) = _
    rw [readText, hexWord?_digitChars (by omega)]
    simp only
    rw [if_pos (Or.inl (by omega)), Char.ofNat_toNat]
  · rw [if_neg hcontrol, List.singleton_append, readText]
    · rw [if_neg hcontrol]
      simp [byteLength]
    · exact hquote
    · exact fun h _ => hslash h
    · exact fun _ _ _ _ _ h _ => hslash h
    · exact fun _ h _ => hslash h
    · exact fun _ _ h _ => hslash h

/-- The characters between the quotes of a written text are read back, up to the closing quote. -/
theorem readText_flatMap (offset : Nat) (cs rest : List Char) :
    ∃ stop, readText offset (cs.flatMap escapeChar ++ '"' :: rest) = .ok (cs, ⟨stop, rest⟩) := by
  induction cs generalizing offset with
  | nil => exact ⟨offset + 1, by rw [List.flatMap_nil, List.nil_append, readText]⟩
  | cons c cs ih =>
    obtain ⟨stop, hstop⟩ := ih (offset + byteLength (escapeChar c))
    refine ⟨stop, ?_⟩
    rw [List.flatMap_cons, List.append_assoc, readText_escapeChar, hstop]
    rfl


/-! ## Lexemes -/

/-- Some characters are lexed as some tokens, whatever follows them. -/
def LexesAs (cs : List Char) (tokens : List Token) : Prop :=
  ∀ limit offset rest, ∃ more stop lexemes, lexemes.map Lexeme.token = tokens ∧
    lexFrom (limit + cs.length) ⟨offset, cs ++ rest⟩ =
      lexemes ++ lexFrom (limit + more) ⟨stop, rest⟩

namespace LexesAs

theorem nil : LexesAs [] [] :=
  fun _ offset _ => ⟨0, offset, [], rfl, rfl⟩

theorem append {cs ds : List Char} {ts us : List Token} (hc : LexesAs cs ts)
    (hd : LexesAs ds us) : LexesAs (cs ++ ds) (ts ++ us) := by
  intro limit offset rest
  obtain ⟨more, middle, first, rfl, hfirst⟩ := hc (limit + ds.length) offset (ds ++ rest)
  obtain ⟨more', stop, second, rfl, hsecond⟩ := hd (limit + more) middle rest
  refine ⟨more + more', stop, first ++ second, List.map_append, ?_⟩
  have hlength : limit + (cs ++ ds).length = limit + ds.length + cs.length := by
    rw [List.length_append]; omega
  have hmore : limit + ds.length + more = limit + more + ds.length := by omega
  rw [hlength, List.append_assoc, hfirst, hmore, hsecond, List.append_assoc, Nat.add_assoc limit]

/-- Characters of which the first ones make up a token. -/
theorem of_readToken {c : Char} {cs : List Char} {token : Token} (hgap : isGap c = false)
    (h : ∀ offset rest, ∃ stop, readToken offset c (cs ++ rest) = (token, some ⟨stop, rest⟩)) :
    LexesAs (c :: cs) [token] := by
  intro limit offset rest
  obtain ⟨stop, hstop⟩ := h offset rest
  refine ⟨cs.length, stop, [⟨token, offset, stop⟩], rfl, ?_⟩
  rw [List.length_cons, List.cons_append, ← Nat.add_assoc, lexFrom, hgap]
  simp only [hstop]
  rfl

/-- Gaps between tokens are passed over. -/
theorem gap {cs : List Char} (h : ∀ c ∈ cs, isGap c) : LexesAs cs [] := by
  induction cs with
  | nil => exact nil
  | cons c cs ih =>
    have hc : LexesAs [c] [] := by
      intro limit offset rest
      refine ⟨0, offset + 1, [], rfl, ?_⟩
      rw [List.length_singleton, List.singleton_append, lexFrom, if_pos (h c (by simp))]
      rfl
    exact hc.append (ih fun d hd => h d (by simp [hd]))

theorem newLine (level : Nat) : LexesAs (newLine level) [] := by
  apply gap
  intro c hc
  rcases List.mem_cons.mp hc with rfl | hc
  · rfl
  · rw [List.eq_of_mem_replicate hc]
    rfl

/-- A written text is one token. -/
theorem writeText (s : String) : LexesAs (writeText s) [.scalar (.text s)] := by
  apply of_readToken rfl
  intro offset rest
  obtain ⟨stop, hstop⟩ := readText_flatMap (offset + 1) s.toList rest
  refine ⟨stop, ?_⟩
  rw [List.append_assoc, List.singleton_append]
  show textToken (readText (offset + 1) _) = _
  rw [hstop, textToken, String.ofList_toList]

end LexesAs

/-! ## Values -/

/-- Parts with a comma between each two of them. -/
def partTokens : List (List Token) → List Token
  | [] => []
  | part :: parts => part ++ parts.flatMap (.comma :: ·)

namespace Value

mutual

/-- The tokens of a value. -/
def tokens : Value → List Token
  | scalar s => [.scalar s]
  | array items => .leftBracket :: (partTokens (itemTokens items) ++ [.rightBracket])
  | object members => .leftBrace :: (partTokens (memberTokens members) ++ [.rightBrace])

/-- The tokens of each item. -/
def itemTokens : List Value → List (List Token)
  | [] => []
  | item :: rest => item.tokens :: itemTokens rest

/-- The tokens of each member. -/
def memberTokens : List (String × Value) → List (List Token)
  | [] => []
  | (name, value) :: rest =>
    (.scalar (.text name) :: .colon :: value.tokens) :: memberTokens rest

end

/-- A value of texts alone, whose lists and objects are nested at most `depth` deep. -/
inductive Textual : (depth : Nat) → Value → Prop where
  | text (depth : Nat) (s : String) : Textual depth (.text s)
  | array {depth : Nat} {items : List Value} (h : ∀ item ∈ items, Textual depth item) :
      Textual (depth + 1) (.array items)
  | object {depth : Nat} {members : List (String × Value)}
      (h : ∀ member ∈ members, Textual depth member.2) : Textual (depth + 1) (.object members)

end Value

namespace LexesAs

theorem flatMap_comma (level : Nat) {parts : List (List Char)} {tokens : List (List Token)}
    (h : List.Forall₂ LexesAs parts tokens) :
    LexesAs (parts.flatMap (',' :: Json.newLine level ++ ·)) (tokens.flatMap (.comma :: ·)) := by
  have hcomma : LexesAs [','] [.comma] := of_readToken rfl fun offset _ => ⟨offset + 1, rfl⟩
  induction h with
  | nil => exact nil
  | cons hpart _ ih => exact ((hcomma.append (newLine level)).append hpart).append ih

/-- Parts between two brackets are lexed as the brackets and the tokens of the parts. -/
theorem writeParts {opening closing : Char} {first last : Token}
    (hfirst : LexesAs [opening] [first]) (hlast : LexesAs [closing] [last]) (level : Nat)
    {parts : List (List Char)} {tokens : List (List Token)}
    (h : List.Forall₂ LexesAs parts tokens) :
    LexesAs (writeParts opening closing level parts) (first :: (partTokens tokens ++ [last])) := by
  cases h with
  | nil => exact hfirst.append hlast
  | cons hpart hparts =>
    have hinside := ((newLine (level + 1)).append hpart).append (flatMap_comma (level + 1) hparts)
    have hbody := (hinside.append (newLine level)).append hlast
    rw [List.append_nil] at hbody
    exact hfirst.append hbody

theorem writeItems {items : List Value}
    (h : ∀ item ∈ items, ∀ level, LexesAs (item.write level) item.tokens) (level : Nat) :
    List.Forall₂ LexesAs (Value.writeItems level items) (Value.itemTokens items) := by
  induction items with
  | nil => exact .nil
  | cons item rest ih =>
    exact .cons (h item (by simp) level) (ih fun other hother => h other (by simp [hother]))

theorem writeMembers {members : List (String × Value)}
    (h : ∀ member ∈ members, ∀ level, LexesAs (member.2.write level) member.2.tokens)
    (level : Nat) :
    List.Forall₂ LexesAs (Value.writeMembers level members) (Value.memberTokens members) := by
  have hcolon : LexesAs [':'] [.colon] := of_readToken rfl fun offset _ => ⟨offset + 1, rfl⟩
  have hspace : LexesAs [' '] [] := gap (by simp [isGap])
  induction members with
  | nil => exact .nil
  | cons member rest ih =>
    obtain ⟨name, value⟩ := member
    have hvalue := h (name, value) (by simp) level
    exact .cons ((writeText name).append (hcolon.append (hspace.append hvalue)))
      (ih fun other hother => h other (by simp [hother]))

/-- **A written value is lexed as its tokens**, at every level of indentation. -/
theorem write {depth : Nat} {v : Value} (h : v.Textual depth) (level : Nat) :
    LexesAs (v.write level) v.tokens := by
  induction h generalizing level with
  | text depth s => exact writeText s
  | array _ ih =>
    exact writeParts (of_readToken rfl fun offset _ => ⟨offset + 1, rfl⟩)
      (of_readToken rfl fun offset _ => ⟨offset + 1, rfl⟩) level (writeItems ih (level + 1))
  | object _ ih =>
    exact writeParts (of_readToken rfl fun offset _ => ⟨offset + 1, rfl⟩)
      (of_readToken rfl fun offset _ => ⟨offset + 1, rfl⟩) level (writeMembers ih (level + 1))

end LexesAs

/-- A text that is lexed as some tokens has their lexemes. -/
theorem LexesAs.map_token_lex {cs : List Char} {tokens : List Token} (h : LexesAs cs tokens) :
    (lex cs).map Lexeme.token = tokens := by
  obtain ⟨more, stop, lexemes, htokens, hlex⟩ := h 0 0 []
  rw [List.append_nil, Nat.zero_add, Nat.zero_add] at hlex
  have hend : lexFrom more ⟨stop, []⟩ = [] := by cases more <;> rfl
  rw [lex, hlex, hend, List.append_nil, htokens]

end FitScript.Json
