import FitScript.Proofs.Json.Lexemes
import FitScript.Proofs.Json.Numbers
import FitScript.Proofs.Outcome
import Mathlib.Data.List.Chain

/-!
# Spellings

How tokens are written: one behind the other, each in one of its own spellings, with gaps where
one likes.

* `Token.IsText`: characters that alone are read as a token.
* `Spelled`: characters that are texts of tokens with gaps around them.
* `Separated`: tokens of which no two scalars are neighbours.
* `readsFrom_readToken`: a token is read from its own characters.
* `map_token_lex_iff_spelled`: characters are lexed as separated tokens iff they spell them.
-/

namespace FitScript.Json

/-! ## Local readers of scalars -/

section

variable {α β : Type} {ends : List Char → Prop} {read : Cursor → Except Fault (α × Cursor)}
  {cs : List Char}

theorem LocalAt.map (f : α → β) (h : LocalAt ends read cs) :
    LocalAt ends (fun cursor => (read cursor).map fun (a, after) => (f a, after)) cs := by
  intro offset b after hok
  obtain ⟨⟨a, after'⟩, ha, heq⟩ := Outcome.map_eq_ok_iff.mp hok
  obtain ⟨rfl, rfl⟩ := Prod.mk.inj heq
  obtain ⟨w, hw, hlocal⟩ := h offset a after' ha
  refine ⟨w, hw, ?_⟩
  intro offset' rest hrest
  obtain ⟨stop, hstop⟩ := hlocal offset' rest hrest
  exact ⟨stop, by simp only [hstop]; rfl⟩

end

/-- Anything may follow. -/
def Anything (_ : List Char) : Prop :=
  True

/-- The characters of a string and its closing quote are read from themselves. -/
theorem local_readText : Local Anything fun cursor => readText cursor.offset cursor.rest := by
  intro cs
  -- A string goes on behind each of its characters and escapes; all that is wrong with one of them
  -- is wrong wherever it stands.
  induction 0, cs using readText.induct with
  | case1 | case3 => exact .of_error fun _ => ⟨_, by rw [readText]⟩
  | case2 offset rest =>
    intro offset a after hok
    simp only [readText, Except.ok.injEq, Prod.mk.injEq] at hok
    obtain ⟨rfl, rfl⟩ := hok
    exact ⟨['"'], rfl, fun offset' rest' _ => ⟨offset' + 1, by simp [readText]⟩⟩
  | case4 offset a b c d rest h => exact .of_error fun _ => ⟨_, by simp only [readText, h]; rfl⟩
  | case5 offset a b c d rest n h hn ih =>
    refine .append ['\\', 'u', a, b, c, d] (fun offset cs => ⟨offset + 6, ?_⟩)
      (ih.map (Char.ofNat n :: ·))
    simp only [List.cons_append, List.nil_append, readText, h, if_pos hn]
  | case6 offset a b c d rest n h hn hlow =>
    exact .of_error fun _ => ⟨_, by simp only [readText, h, if_neg hn, if_pos hlow]; rfl⟩
  | case7 offset a b c d n h hn hlow e f g i rest h' =>
    exact .of_error fun _ => ⟨_, by simp only [readText, h, if_neg hn, if_neg hlow, h']; rfl⟩
  | case8 offset a b c d n h hn hlow e f g i rest m h' hm ih =>
    refine .append ['\\', 'u', a, b, c, d, '\\', 'u', e, f, g, i]
      (fun offset cs => ⟨offset + 12, ?_⟩) (ih.map (pairedChar n m :: ·))
    simp only [List.cons_append, List.nil_append, readText, h, if_neg hn, if_neg hlow, h',
      if_pos hm]
  | case9 offset a b c d n h hn hlow e f g i rest m h' hm =>
    exact .of_error fun _ =>
      ⟨_, by simp only [readText, h, if_neg hn, if_neg hlow, h', if_neg hm]; rfl⟩
  | case10 offset a b c d n h hn hlow rest hrest =>
    exact .of_error fun _ => ⟨_, by simp only [readText, h, if_neg hn, if_neg hlow]; rfl⟩
  | case11 offset digits h => exact .of_error fun _ => ⟨_, by rw [readText]; exact h⟩
  | case12 offset c rest hu hu' e h ih =>
    refine .append ['\\', c] (fun offset cs => ⟨offset + 2, ?_⟩) (ih.map (e :: ·))
    rw [List.cons_append, List.singleton_append, readText, h]
    · exact fun _ _ _ _ _ h _ => hu' h
    · exact hu'
  | case13 offset c rest hu hu' h =>
    exact .of_error fun _ => ⟨_, by simp only [readText, h]; rfl⟩
  | case14 offset c rest hquote _ _ _ _ hlow =>
    exact .of_error fun _ => ⟨_, by simp only [readText, if_pos hlow]; rfl⟩
  | case15 offset c rest hquote hend hu hu' hescape hlow ih =>
    have hslash : c ≠ '\\' := by
      cases rest with
      | nil => exact fun h => hend h rfl
      | cons d rest => exact fun h => hescape d rest h rfl
    refine .append [c] (fun offset cs => ⟨offset + c.utf8Size, ?_⟩) (ih.map (c :: ·))
    rw [List.singleton_append, readText, if_neg hlow]
    · exact hquote
    · exact fun h _ => hslash h
    · exact fun _ _ _ _ _ h _ => hslash h
    · exact fun _ h _ => hslash h
    · exact fun _ _ h _ => hslash h

/-- A word is read where it stands. -/
theorem readWord_eq_ok_iff {word cs : List Char} {offset : Nat} {after : Cursor} :
    readWord word ⟨offset, cs⟩ = .ok after ↔
      cs = word ++ after.rest ∧ after.offset = offset + word.length := by
  induction word generalizing offset cs with
  | nil =>
    obtain ⟨stop, rest⟩ := after
    simp [readWord, and_comm, eq_comm]
  | cons w word ih =>
    cases cs with
    | nil => simp [readWord]
    | cons c cs =>
      rw [readWord]
      by_cases hc : c = w
      · have hlength : offset + 1 + word.length = offset + (word.length + 1) := by omega
        simp only [hc, if_true, ih, List.cons_append, List.cons.injEq, true_and, List.length_cons,
          hlength]
      · simp [hc]

theorem local_readWord (word : List Char) (s : Scalar) :
    Local Anything fun cursor => (readWord word cursor).map (s, ·) := by
  intro cs offset a after hok
  obtain ⟨after', hword, heq⟩ := Outcome.map_eq_ok_iff.mp hok
  obtain ⟨rfl, rfl⟩ := Prod.mk.inj heq
  refine ⟨word, (readWord_eq_ok_iff.mp hword).1, ?_⟩
  intro offset' rest _
  exact ⟨_, Outcome.map_eq_ok_iff.mpr
    ⟨⟨offset' + word.length, rest⟩, readWord_eq_ok_iff.mpr ⟨rfl, rfl⟩, rfl⟩⟩

/-! ## Tokens -/

namespace Token

/-- A token is a scalar. -/
def isScalar : Token → Bool
  | .scalar _ => true
  | _ => false

/-- A token was read. -/
def isSound : Token → Bool
  | .brokenText _ => false
  | .broken _ => false
  | _ => true

/-- Some characters alone are read as a token. -/
def IsText (token : Token) : List Char → Prop
  | [] => False
  | c :: rest => isGap c = false ∧ ∃ stop, readToken 0 c rest = (token, some ⟨stop, []⟩)

end Token

/-- A sound token stands before `rest`, and it is read as well from its characters elsewhere. What
    follows a scalar there must not go on with a number. -/
def ReadsFrom (read : Nat → List Char → Token × Option Cursor) (token : Token)
    (cs rest : List Char) : Prop :=
  token.isSound ∧ ∃ w, cs = w ++ rest ∧ ∀ offset rest', (token.isScalar → EndsNumber rest') →
    ∃ stop, read offset (w ++ rest') = (token, some ⟨stop, rest'⟩)

section

variable {α : Type} {offset : Nat} {c : Char} {cs : List Char} {token : Token} {after : Cursor}

theorem scalarToken_eq_some_iff {r : Except Fault (Scalar × Cursor)} :
    scalarToken r = (token, some after) ↔ ∃ s, r = .ok (s, after) ∧ .scalar s = token := by
  cases r with
  | ok p => simp [scalarToken, Prod.ext_iff, and_comm]
  | error fault => simp [scalarToken]

theorem textToken_eq_some_iff {r : Except Fault (List Char × Cursor)} :
    textToken r = (token, some after) ↔
      ∃ cs, r = .ok (cs, after) ∧ .scalar (.text (String.ofList cs)) = token := by
  cases r with
  | ok p => simp [textToken, Prod.ext_iff, and_comm]
  | error fault => simp [textToken]

/-- A scalar of a local reader is read from its characters. -/
theorem readsFrom_of_local {ends : List Char → Prop} {read : Cursor → Except Fault (α × Cursor)}
    {asToken : Except Fault (α × Cursor) → Token × Option Cursor} {scalar : α → Scalar}
    (htoken : ∀ r token after, asToken r = (token, some after) ↔
      ∃ a, r = .ok (a, after) ∧ .scalar (scalar a) = token)
    (hread : LocalAt ends read cs) (hends : ∀ rest, EndsNumber rest → ends rest)
    (h : asToken (read ⟨offset, cs⟩) = (token, some after)) :
    ReadsFrom (fun offset cs => asToken (read ⟨offset, cs⟩)) token cs after.rest := by
  obtain ⟨a, hok, rfl⟩ := (htoken _ _ _).mp h
  obtain ⟨w, hw, hlocal⟩ := hread offset a after hok
  refine ⟨rfl, w, hw, ?_⟩
  intro offset' rest hrest
  obtain ⟨stop, hstop⟩ := hlocal offset' rest (hends rest (hrest rfl))
  exact ⟨stop, (htoken _ _ _).mpr ⟨a, hstop, rfl⟩⟩

/-- A number takes at least its first character. -/
theorem readsFrom_readNumber
    (h : scalarToken (readNumber ⟨offset, c :: cs⟩) = (token, some after)) :
    ReadsFrom (fun offset cs => scalarToken (readNumber ⟨offset, c :: cs⟩)) token cs
      after.rest := by
  obtain ⟨hsound, w, hw, hlocal⟩ := readsFrom_of_local (fun _ _ _ => scalarToken_eq_some_iff)
    (local_readNumber _) (fun _ h => h) h
  cases w with
  | nil =>
    obtain ⟨stop, hstop⟩ := hlocal 0 [] fun _ => endsNumber_nil
    cases hstop
  | cons d w =>
    obtain ⟨rfl, rfl⟩ := List.cons.inj hw
    exact ⟨hsound, w, rfl, hlocal⟩

theorem readToken_eq_scalarToken (hc : c = '-' ∨ c.isDigit) :
    readToken offset c cs = scalarToken (readNumber ⟨offset, c :: cs⟩) := by
  unfold readToken
  split
  case h_11 => exact if_pos hc
  all_goals exact absurd hc (by decide)

/-- **A token is read from its own characters.** -/
theorem readsFrom_readToken (h : readToken offset c cs = (token, some after)) :
    ReadsFrom (fun offset => readToken offset c) token cs after.rest := by
  unfold readToken at h
  split at h
  case h_1 | h_2 | h_3 | h_4 | h_5 | h_6 =>
    obtain ⟨rfl, hafter⟩ := Prod.mk.inj h
    obtain rfl := Option.some.inj hafter
    exact ⟨rfl, [], rfl, fun offset' rest _ => ⟨offset' + 1, rfl⟩⟩
  case h_7 =>
    obtain ⟨hsound, w, hw, hlocal⟩ := readsFrom_of_local (fun _ _ _ => textToken_eq_some_iff)
      (local_readText cs) (fun _ _ => trivial) h
    exact ⟨hsound, w, hw, fun offset' => hlocal (offset' + 1)⟩
  case h_8 | h_9 | h_10 =>
    obtain ⟨hsound, w, hw, hlocal⟩ := readsFrom_of_local (fun _ _ _ => scalarToken_eq_some_iff)
      (local_readWord _ _ cs) (fun _ _ => trivial) h
    exact ⟨hsound, w, hw, fun offset' => hlocal (offset' + 1)⟩
  case h_11 =>
    split at h
    next hc =>
      obtain ⟨hsound, w, hw, hlocal⟩ := readsFrom_readNumber h
      refine ⟨hsound, w, hw, fun offset' rest hrest => ?_⟩
      obtain ⟨stop, hstop⟩ := hlocal offset' rest hrest
      exact ⟨stop, (readToken_eq_scalarToken hc).trans hstop⟩
    next => cases (Prod.mk.inj h).2

/-- A token that is not read is broken. -/
theorem not_isSound_of_readToken (h : readToken offset c cs = (token, none)) :
    token.isSound = false := by
  have hscalar : ∀ r, scalarToken r = (token, none) → token.isSound = false := by
    rintro (fault | p) hr <;> cases hr
    rfl
  unfold readToken at h
  split at h
  case h_1 | h_2 | h_3 | h_4 | h_5 | h_6 => cases (Prod.mk.inj h).2
  case h_7 =>
    generalize readText (offset + 1) cs = r at h
    cases r <;> cases h
    rfl
  case h_8 | h_9 | h_10 => exact hscalar _ h
  case h_11 =>
    split at h
    next => exact hscalar _ h
    next =>
      obtain ⟨rfl, -⟩ := Prod.mk.inj h
      rfl

/-- The first character of a token that is no scalar does not go on with a number. -/
theorem endsNumber_of_readToken (h : readToken offset c cs = (token, some after))
    (hscalar : token.isScalar = false) (rest : List Char) : EndsNumber (c :: rest) := by
  have hnone : ∀ r, scalarToken r ≠ (token, some after) := by
    intro r hr
    obtain ⟨s, -, rfl⟩ := scalarToken_eq_some_iff.mp hr
    cases hscalar
  rw [endsNumber_cons_iff]
  unfold readToken at h
  split at h
  case h_1 | h_2 | h_3 | h_4 | h_5 | h_6 => decide
  case h_7 =>
    obtain ⟨cs, -, rfl⟩ := textToken_eq_some_iff.mp h
    cases hscalar
  case h_8 | h_9 | h_10 => exact absurd h (hnone _)
  case h_11 =>
    split at h
    next => exact absurd h (hnone _)
    next => cases (Prod.mk.inj h).2

theorem endsNumber_of_isGap (hc : isGap c) : EndsNumber (c :: cs) := by
  simp only [isGap, Bool.or_eq_true, beq_iff_eq] at hc
  rw [endsNumber_cons_iff]
  obtain ((rfl | rfl) | rfl) | rfl := hc <;> decide

end

/-! ## Spellings -/

/-- Characters that are texts of tokens, one behind the other, with gaps around them. -/
inductive Spelled : List Token → List Char → Prop where
  | nil {gap : List Char} (hgap : ∀ c ∈ gap, isGap c) : Spelled [] gap
  | cons {gap w cs : List Char} {token : Token} {tokens : List Token} (hgap : ∀ c ∈ gap, isGap c)
      (hw : token.IsText w) (h : Spelled tokens cs) : Spelled (token :: tokens) (gap ++ (w ++ cs))

/-- Tokens of which no two scalars are neighbours. -/
def Separated (tokens : List Token) : Prop :=
  tokens.IsChain fun a b => a.isScalar → b.isScalar = false

/-- A gap in front of a spelling may be longer. -/
theorem Spelled.gap_cons {c : Char} {cs : List Char} {tokens : List Token} (hc : isGap c)
    (h : Spelled tokens cs) : Spelled tokens (c :: cs) := by
  cases h with
  | nil hgap => exact .nil (List.forall_mem_cons.mpr ⟨hc, hgap⟩)
  | cons hgap hw h => exact .cons (List.forall_mem_cons.mpr ⟨hc, hgap⟩) hw h

/-- Characters whose tokens are all read spell these tokens. -/
theorem spelled_of_lexFrom {limit offset : Nat} {cs : List Char} (hlimit : cs.length ≤ limit)
    (h : ∀ token ∈ (lexFrom limit ⟨offset, cs⟩).map Lexeme.token, token.isSound) :
    Spelled ((lexFrom limit ⟨offset, cs⟩).map Lexeme.token) cs := by
  induction limit generalizing offset cs with
  | zero =>
    obtain rfl := List.length_eq_zero_iff.mp (Nat.le_zero.mp hlimit)
    exact .nil (by simp)
  | succ limit ih =>
    cases cs with
    | nil => exact .nil (by simp)
    | cons c cs =>
      rw [lexFrom] at h ⊢
      cases hgap : isGap c with
      | true =>
        simp only [hgap, if_true] at h ⊢
        exact (ih (Nat.le_of_succ_le_succ hlimit) h).gap_cons hgap
      | false =>
        simp only [hgap, Bool.false_eq_true, if_false] at h ⊢
        rcases hread : readToken offset c cs with ⟨token, _ | after⟩
        · simp only [hread, List.map_cons, List.map_nil, List.mem_singleton, forall_eq,
            not_isSound_of_readToken hread] at h
          cases h
        · obtain ⟨-, w, rfl, hlocal⟩ := readsFrom_readToken hread
          obtain ⟨stop, hstop⟩ := hlocal 0 [] fun _ => endsNumber_nil
          rw [List.append_nil] at hstop
          simp only [hread, List.map_cons, List.forall_mem_cons] at h ⊢
          have hlength : after.rest.length ≤ limit := by
            simp only [List.length_cons, List.length_append] at hlimit
            omega
          have htext : token.IsText (c :: w) := ⟨hgap, stop, hstop⟩
          show Spelled _ ([] ++ (c :: w ++ after.rest))
          exact .cons (by simp) htext (ih hlength h.2)

/-- A spelling whose first token is no scalar does not go on with a number before it. -/
theorem Spelled.endsNumber {cs : List Char} {tokens : List Token} (h : Spelled tokens cs)
    (hhead : ∀ token ∈ tokens.head?, token.isScalar = false) : EndsNumber cs := by
  cases h with
  | nil hgap =>
    cases cs with
    | nil => exact endsNumber_nil
    | cons c cs => exact endsNumber_of_isGap (hgap c (by simp))
  | @cons gap w cs token tokens hgap hw h =>
    cases gap with
    | cons c gap => exact endsNumber_of_isGap (hgap c (by simp))
    | nil =>
      cases w with
      | nil => exact hw.elim
      | cons c w =>
        obtain ⟨-, stop, hread⟩ := hw
        exact endsNumber_of_readToken hread (hhead token rfl) (w ++ cs)

/-- Gaps are passed over. -/
theorem exists_lexFrom_gap {gap cs : List Char} (hgap : ∀ c ∈ gap, isGap c) {limit : Nat}
    (hlimit : (gap ++ cs).length ≤ limit) (offset : Nat) :
    ∃ limit' offset', cs.length ≤ limit' ∧
      lexFrom limit ⟨offset, gap ++ cs⟩ = lexFrom limit' ⟨offset', cs⟩ := by
  induction gap generalizing limit offset with
  | nil => exact ⟨limit, offset, hlimit, rfl⟩
  | cons c gap ih =>
    obtain ⟨hc, hgap⟩ := List.forall_mem_cons.mp hgap
    cases limit with
    | zero => simp at hlimit
    | succ limit =>
      obtain ⟨limit', offset', hlimit', heq⟩ :=
        ih hgap (Nat.le_of_succ_le_succ hlimit) (offset + 1)
      exact ⟨limit', offset', hlimit', by rw [List.cons_append, lexFrom, if_pos hc, heq]⟩

/-- Characters that spell separated tokens are lexed as them. -/
theorem Spelled.map_token_lexFrom {limit offset : Nat} {cs : List Char} {tokens : List Token}
    (h : Spelled tokens cs) (hseparated : Separated tokens) (hlimit : cs.length ≤ limit) :
    (lexFrom limit ⟨offset, cs⟩).map Lexeme.token = tokens := by
  induction h generalizing limit offset with
  | @nil gap hgap =>
    obtain ⟨limit', offset', -, heq⟩ : ∃ limit' offset', ([] : List Char).length ≤ limit' ∧
        lexFrom limit ⟨offset, gap ++ []⟩ = lexFrom limit' ⟨offset', []⟩ :=
      exists_lexFrom_gap hgap (by simpa) offset
    rw [List.append_nil] at heq
    rw [heq]
    cases limit' <;> rfl
  | @cons gap w cs token tokens hgap hw h ih =>
    obtain ⟨limit', offset', hlimit', heq⟩ := exists_lexFrom_gap hgap hlimit offset
    rw [heq]
    cases w with
    | nil => exact hw.elim
    | cons c w =>
      obtain ⟨hc, stop, hread⟩ := hw
      obtain ⟨-, w', hw', hlocal⟩ := readsFrom_readToken hread
      obtain rfl := hw'.trans w'.append_nil
      have hends : token.isScalar → EndsNumber cs := fun hscalar =>
        h.endsNumber fun next hnext =>
          (List.isChain_cons.mp hseparated).1 next hnext hscalar
      obtain ⟨stop, hstop⟩ := hlocal offset' cs hends
      cases limit' with
      | zero => simp at hlimit'
      | succ limit' =>
        have hlength : cs.length ≤ limit' := by
          simp only [List.length_cons, List.length_append] at hlimit'
          omega
        rw [List.cons_append, lexFrom, hc]
        simp only [hstop, Bool.false_eq_true, if_false, List.map_cons]
        rw [ih hseparated.tail hlength]

/-- **Characters are lexed as separated tokens iff they spell them.** -/
theorem map_token_lex_iff_spelled {cs : List Char} {tokens : List Token}
    (hsound : ∀ token ∈ tokens, token.isSound) (hseparated : Separated tokens) :
    (lex cs).map Lexeme.token = tokens ↔ Spelled tokens cs := by
  constructor
  · rintro rfl
    exact spelled_of_lexFrom le_rfl hsound
  · exact fun h => h.map_token_lexFrom hseparated le_rfl

end FitScript.Json
