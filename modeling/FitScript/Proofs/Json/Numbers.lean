import FitScript.Json.Number
import Mathlib.Data.List.TakeDrop
import Mathlib.Data.List.TakeWhile

/-!
# Characters of numbers

A number is read from its own characters: neither where they stand nor what follows them changes
it, as long as what follows does not go on with the number.

* `EndsNumber`: what may follow a number.
* `Local`: a reader that depends on the characters it takes alone. `LocalAt.behind`: a reader that
  takes some characters and goes on as a local reader.
* `readPower_eq_ok_iff`: which exponents are read, and as what.
* `local_readNumber`: numbers are read locally.
-/

namespace FitScript.Json

/-! ## Local readers -/

section

variable {α : Type} {ends : List Char → Prop} {read read' : Cursor → Except Fault (α × Cursor)}
  {cs : List Char}

/-- From the given characters a reader takes the first ones, and it reads the same from these
    wherever they stand before something that `ends` them. -/
def LocalAt (ends : List Char → Prop) (read : Cursor → Except Fault (α × Cursor))
    (cs : List Char) : Prop :=
  ∀ offset a after, read ⟨offset, cs⟩ = .ok (a, after) → ∃ w, cs = w ++ after.rest ∧
    ∀ offset' rest, ends rest → ∃ stop, read ⟨offset', w ++ rest⟩ = .ok (a, ⟨stop, rest⟩)

/-- What a reader reads depends on the characters that it takes alone. -/
def Local (ends : List Char → Prop) (read : Cursor → Except Fault (α × Cursor)) : Prop :=
  ∀ cs, LocalAt ends read cs

/-- What holds of the first character holds when only the characters behind it are changed. -/
theorem forall_head?_append {P : Char → Prop} {w rest rest' : List Char}
    (h : ∀ c ∈ (w ++ rest).head?, P c) (h' : ∀ c ∈ rest'.head?, P c) :
    ∀ c ∈ (w ++ rest').head?, P c := by
  cases w with
  | nil => exact h'
  | cons d w => exact h

theorem exists_cons_of_head? {P : Char → Prop} (h : ¬ ∀ c ∈ cs.head?, P c) :
    ∃ c rest, cs = c :: rest ∧ ¬ P c := by
  cases cs with
  | nil => simp at h
  | cons c rest => exact ⟨c, rest, rfl, fun hc => h (by simpa using hc)⟩

/-- A reader that takes some characters and goes on as a local reader. Which reader it goes on as
    may depend on the next character. -/
theorem LocalAt.behind {P : Char → Prop} (ds : List Char)
    (hends : ∀ rest, ends rest → ∀ c ∈ rest.head?, P c)
    (hread : ∀ offset cs, (∀ c ∈ cs.head?, P c) →
      ∃ behind, read ⟨offset, ds ++ cs⟩ = read' ⟨behind, cs⟩)
    (h : LocalAt ends read' cs) (hcs : ∀ c ∈ cs.head?, P c) : LocalAt ends read (ds ++ cs) := by
  intro offset a after hok
  obtain ⟨behind, heq⟩ := hread offset cs hcs
  obtain ⟨w, rfl, hlocal⟩ := h behind a after (heq.symm.trans hok)
  refine ⟨ds ++ w, (List.append_assoc ds w _).symm, ?_⟩
  intro offset' rest hrest
  obtain ⟨behind', heq'⟩ := hread offset' _ (forall_head?_append hcs (hends rest hrest))
  obtain ⟨stop, hstop⟩ := hlocal behind' rest hrest
  exact ⟨stop, by rw [List.append_assoc, heq', hstop]⟩

/-- A reader that is a local reader before some characters. -/
theorem LocalAt.of_eq {P : Char → Prop} (hends : ∀ rest, ends rest → ∀ c ∈ rest.head?, P c)
    (hread : ∀ offset cs, (∀ c ∈ cs.head?, P c) → read ⟨offset, cs⟩ = read' ⟨offset, cs⟩)
    (h : LocalAt ends read' cs) (hcs : ∀ c ∈ cs.head?, P c) : LocalAt ends read cs :=
  behind [] hends (fun offset cs hcs => ⟨offset, hread offset cs hcs⟩) h hcs

/-- A reader that takes some characters, whatever follows them, and goes on as a local reader. -/
theorem LocalAt.append (ds : List Char)
    (hread : ∀ offset cs, ∃ behind, read ⟨offset, ds ++ cs⟩ = read' ⟨behind, cs⟩)
    (h : LocalAt ends read' cs) : LocalAt ends read (ds ++ cs) :=
  behind (P := fun _ => True) ds (fun _ _ _ _ => trivial) (fun offset cs _ => hread offset cs) h
    fun _ _ => trivial

theorem LocalAt.cons (c : Char)
    (hread : ∀ offset cs, read ⟨offset, c :: cs⟩ = read' ⟨offset + 1, cs⟩)
    (h : LocalAt ends read' cs) : LocalAt ends read (c :: cs) :=
  append [c] (fun offset cs => ⟨offset + 1, hread offset cs⟩) h

theorem LocalAt.of_error (h : ∀ offset, ∃ fault, read ⟨offset, cs⟩ = .error fault) :
    LocalAt ends read cs := by
  intro offset a after hok
  obtain ⟨fault, herror⟩ := h offset
  rw [herror] at hok
  cases hok

/-- A reader that takes nothing. -/
theorem Local.of_option {read : Cursor → Except Fault (α × Cursor)} (o : Option α)
    (h : ∀ cursor r, read cursor = .ok r ↔ ∃ a, o = some a ∧ r = (a, cursor)) :
    Local ends read := by
  intro cs offset a after hok
  obtain ⟨a, ha, hr⟩ := (h _ _).mp hok
  obtain ⟨rfl, rfl⟩ := Prod.mk.inj hr
  exact ⟨[], rfl, fun offset' rest _ => ⟨offset', (h _ _).mpr ⟨a, ha, rfl⟩⟩⟩

end

/-! ## Digits -/

/-- Characters that do not go on with a number before them. -/
def EndsNumber (cs : List Char) : Prop :=
  ∀ c ∈ cs.head?, c.isDigit = false ∧ c ≠ '.' ∧ c ≠ 'e' ∧ c ≠ 'E' ∧ c ≠ '+' ∧ c ≠ '-'

theorem span_isDigit_eq_iff {cs ds rest : List Char} :
    cs.span Char.isDigit = (ds, rest) ↔
      cs = ds ++ rest ∧ (∀ c ∈ ds, c.isDigit) ∧ ∀ c ∈ rest.head?, c.isDigit = false := by
  rw [List.span_eq_takeWhile_dropWhile]
  constructor
  · intro h
    obtain ⟨rfl, rfl⟩ := Prod.mk.inj h
    refine ⟨List.takeWhile_append_dropWhile.symm, fun c hc => List.mem_takeWhile_imp hc, ?_⟩
    intro c hc
    have := List.head?_dropWhile_not Char.isDigit cs
    rw [Option.mem_def.mp hc] at this
    simpa using this
  · rintro ⟨rfl, hds, hrest⟩
    rw [List.takeWhile_append_of_pos hds, List.dropWhile_append_of_pos hds]
    cases rest with
    | nil => simp
    | cons c rest => simp [hrest c rfl]

theorem endsNumber_nil : EndsNumber [] := by
  simp [EndsNumber]

theorem endsNumber_cons_iff {c : Char} {cs : List Char} :
    EndsNumber (c :: cs) ↔
      c.isDigit = false ∧ c ≠ '.' ∧ c ≠ 'e' ∧ c ≠ 'E' ∧ c ≠ '+' ∧ c ≠ '-' := by
  simp [EndsNumber]

theorem not_isDigit_of_endsNumber {cs : List Char} (h : EndsNumber cs) :
    ∀ c ∈ cs.head?, c.isDigit = false :=
  fun c hc => (h c hc).1

/-! ## Exponents -/

/-- The double that is written with a sign, a mantissa and an exponent. -/
def double? (negative : Bool) (mantissa : Nat) (exponent : Int) : Option Scalar :=
  (scaled? mantissa exponent).map fun x => .float (if negative then -x else x)

/-- The double for a mantissa and the exponent that is read behind it. -/
def power? (negative : Bool) (mantissa : Nat) (shift : Int) (down : Bool) (n : Nat) :
    Option Scalar :=
  if n ≤ exponentLimit then double? negative mantissa (if down then shift - n else shift + n)
  else if mantissa ≠ 0 ∧ !down then none
  else double? negative 0 0

/-- The sign of an exponent, and the place behind it. -/
def exponentSign (cursor : Cursor) : Bool × Cursor :=
  match cursor.rest with
  | '+' :: rest => (false, cursor.past ['+'] rest)
  | '-' :: rest => (true, cursor.past ['-'] rest)
  | _ => (false, cursor)

/-- Reads the digits of an exponent with the given sign. -/
def readPower (negative : Bool) (mantissa : Nat) (shift : Int) (down : Bool) (cursor : Cursor) :
    Except Fault (Scalar × Cursor) :=
  let (ds, rest) := cursor.rest.span Char.isDigit
  let after := cursor.past ds rest
  match ds, rest with
  | [], [] => .error ⟨.endInValue, cursor.offset⟩
  | [], _ :: _ => .error ⟨.invalidNumber, cursor.offset + 1⟩
  | _ :: _, _ =>
    let n := digitsValue ds
    if n ≤ exponentLimit then
      (double negative mantissa (if down then shift - n else shift + n) after.offset).map (·, after)
    else if mantissa ≠ 0 ∧ !down then
      .error ⟨.numberOutOfRange, cursor.offset + digitsPastLimit ds⟩
    else (double negative 0 0 after.offset).map (·, after)

section

variable {negative : Bool} {mantissa offset : Nat} {shift : Int} {s : Scalar}
  {cursor after : Cursor}

theorem readExponent_eq :
    readExponent negative mantissa shift cursor =
      readPower negative mantissa shift (exponentSign cursor).1 (exponentSign cursor).2 :=
  rfl

theorem map_double_eq_ok_iff :
    (double negative mantissa shift offset).map (·, cursor) = .ok (s, after) ↔
      double? negative mantissa shift = some s ∧ after = cursor := by
  unfold double double?
  cases scaled? mantissa shift <;> simp [Except.map, eq_comm]

theorem ite_power_eq_ok_iff {down : Bool} {n offset' : Nat} {fault : Fault} :
    (if n ≤ exponentLimit then
      (double negative mantissa (if down then shift - n else shift + n) offset).map (·, cursor)
    else if mantissa ≠ 0 ∧ !down then .error fault
    else (double negative 0 0 offset').map (·, cursor)) = .ok (s, after) ↔
      power? negative mantissa shift down n = some s ∧ after = cursor := by
  unfold power?
  by_cases hn : n ≤ exponentLimit
  · rw [if_pos hn, if_pos hn, map_double_eq_ok_iff]
  · rw [if_neg hn, if_neg hn]
    by_cases hout : mantissa ≠ 0 ∧ !down
    · rw [if_pos hout, if_pos hout]
      simp
    · rw [if_neg hout, if_neg hout, map_double_eq_ok_iff]

theorem readPower_eq_ok_iff {down : Bool} :
    readPower negative mantissa shift down cursor = .ok (s, after) ↔
      ∃ ds rest, ds ≠ [] ∧ cursor.rest.span Char.isDigit = (ds, rest) ∧
        power? negative mantissa shift down (digitsValue ds) = some s ∧
        after = cursor.past ds rest := by
  unfold readPower
  generalize hspan : cursor.rest.span Char.isDigit = p
  obtain ⟨ds, rest⟩ := p
  cases ds with
  | nil => cases rest <;> simp
  | cons d ds =>
    simp only [Prod.mk.injEq]
    refine ite_power_eq_ok_iff.trans ?_
    simp

end

/-! ## Numbers -/

theorem local_readPower (negative : Bool) (mantissa : Nat) (shift : Int) (down : Bool) :
    Local EndsNumber (readPower negative mantissa shift down) := by
  intro cs offset s after hok
  obtain ⟨ds, rest, hne, hspan, hpower, rfl⟩ := readPower_eq_ok_iff.mp hok
  obtain ⟨rfl, hds, -⟩ := span_isDigit_eq_iff.mp hspan
  refine ⟨ds, rfl, ?_⟩
  intro offset' rest' hrest
  have hspan' : (ds ++ rest').span Char.isDigit = (ds, rest') :=
    span_isDigit_eq_iff.mpr ⟨rfl, hds, not_isDigit_of_endsNumber hrest⟩
  exact ⟨_, readPower_eq_ok_iff.mpr ⟨ds, rest', hne, hspan', hpower, rfl⟩⟩

theorem local_readExponent (negative : Bool) (mantissa : Nat) (shift : Int) :
    Local EndsNumber (readExponent negative mantissa shift) := by
  have hpower := local_readPower negative mantissa shift
  have hunsigned : ∀ offset cs, (∀ c ∈ List.head? cs, c ≠ '+' ∧ c ≠ '-') →
      readExponent negative mantissa shift ⟨offset, cs⟩ =
        readPower negative mantissa shift false ⟨offset, cs⟩ := by
    intro offset cs hcs
    rw [readExponent_eq, exponentSign]
    split
    next h => exact absurd rfl (hcs '+' (congrArg List.head? h)).1
    next h => exact absurd rfl (hcs '-' (congrArg List.head? h)).2
    next => rfl
  intro cs
  by_cases hcs : ∀ c ∈ cs.head?, c ≠ '+' ∧ c ≠ '-'
  · exact .of_eq (fun rest hrest c hc => (hrest c hc).2.2.2.2) hunsigned (hpower false cs) hcs
  · obtain ⟨c, rest, rfl, hc⟩ := exists_cons_of_head? hcs
    by_cases hplus : c = '+'
    · subst hplus
      exact LocalAt.cons '+' (fun _ _ => rfl) (hpower false rest)
    · obtain rfl := not_not.mp fun hminus => hc ⟨hplus, hminus⟩
      exact LocalAt.cons '-' (fun _ _ => rfl) (hpower true rest)

theorem readOptionalExponent_eq_double (negative : Bool) (mantissa : Nat) (shift : Int)
    (offset : Nat) (cs : List Char) (hcs : ∀ c ∈ cs.head?, c ≠ 'e' ∧ c ≠ 'E') :
    readOptionalExponent negative mantissa shift ⟨offset, cs⟩ =
      (double negative mantissa shift offset).map (·, ⟨offset, cs⟩) := by
  unfold readOptionalExponent
  split
  next h => exact absurd rfl (hcs 'e' (congrArg List.head? h)).1
  next h => exact absurd rfl (hcs 'E' (congrArg List.head? h)).2
  next => rfl

theorem local_double (negative : Bool) (mantissa : Nat) (shift : Int) :
    Local EndsNumber fun cursor =>
      (double negative mantissa shift cursor.offset).map (·, cursor) := by
  refine .of_option (double? negative mantissa shift) fun cursor r => ?_
  obtain ⟨s, after⟩ := r
  rw [map_double_eq_ok_iff]
  simp

theorem local_readOptionalExponent (negative : Bool) (mantissa : Nat) (shift : Int) :
    Local EndsNumber (readOptionalExponent negative mantissa shift) := by
  have hexponent := local_readExponent negative mantissa shift
  intro cs
  by_cases hcs : ∀ c ∈ cs.head?, c ≠ 'e' ∧ c ≠ 'E'
  · exact .of_eq (fun rest hrest c hc => ⟨(hrest c hc).2.2.1, (hrest c hc).2.2.2.1⟩)
      (readOptionalExponent_eq_double negative mantissa shift)
      (local_double negative mantissa shift cs) hcs
  · obtain ⟨c, rest, rfl, hc⟩ := exists_cons_of_head? hcs
    by_cases hlower : c = 'e'
    · subst hlower
      exact LocalAt.cons 'e' (fun _ _ => rfl) (hexponent rest)
    · obtain rfl := not_not.mp fun hupper => hc ⟨hlower, hupper⟩
      exact LocalAt.cons 'E' (fun _ _ => rfl) (hexponent rest)

/-- A reader that takes at least one digit and goes on as a local reader. -/
theorem LocalAt.digits {α : Type} {read : Cursor → Except Fault (α × Cursor)} {cs : List Char}
    (hnone : ∀ offset, (cs.span Char.isDigit).1 = [] → ∃ fault, read ⟨offset, cs⟩ = .error fault)
    (hsome : ∀ d ds, cs.head? = some d → (∀ c ∈ d :: ds, c.isDigit) →
      ∃ read', Local EndsNumber read' ∧ ∀ offset rest, (∀ c ∈ rest.head?, c.isDigit = false) →
        read ⟨offset, d :: ds ++ rest⟩ = read' ⟨offset + (d :: ds).length, rest⟩) :
    LocalAt EndsNumber read cs := by
  cases hspan : cs.span Char.isDigit with
  | mk ds rest =>
    cases ds with
    | nil => exact .of_error fun offset => hnone offset (by rw [hspan])
    | cons d ds =>
      obtain ⟨rfl, hds, hrest⟩ := span_isDigit_eq_iff.mp hspan
      obtain ⟨read', hlocal, hread⟩ := hsome d ds rfl hds
      exact .behind (d :: ds) (fun _ h => not_isDigit_of_endsNumber h)
        (fun offset cs hcs => ⟨_, hread offset cs hcs⟩) (hlocal rest) hrest

theorem local_readFraction (negative : Bool) (mantissa : Nat) (shift : Int) :
    Local EndsNumber (readFraction negative mantissa shift) := by
  intro cs
  refine .digits ?_ ?_
  · intro offset hds
    unfold readFraction
    generalize cs.span Char.isDigit = p at hds
    obtain ⟨ds, rest⟩ := p
    obtain rfl : ds = [] := hds
    cases rest <;> exact ⟨_, rfl⟩
  · intro d ds _ hds
    refine ⟨_, local_readOptionalExponent negative (gather mantissa (d :: ds)).1
      (shift - ((d :: ds).length - (gather mantissa (d :: ds)).2.length : Nat)), ?_⟩
    intro offset rest hrest
    have hspan := span_isDigit_eq_iff.mpr ⟨rfl, hds, hrest⟩
    unfold readFraction
    rw [hspan]
    rfl

/-- Reads nothing behind the digits of a number, which is whole or a double. -/
def readPlain (negative : Bool) (mantissa : Nat) (left : List Char) (whole : Option Scalar)
    (cursor : Cursor) : Except Fault (Scalar × Cursor) :=
  match whole with
  | some n => .ok (n, cursor)
  | none => (double negative mantissa left.length cursor.offset).map (·, cursor)

theorem local_readPlain (negative : Bool) (mantissa : Nat) (left : List Char)
    (whole : Option Scalar) : Local EndsNumber (readPlain negative mantissa left whole) := by
  cases whole with
  | some n => exact .of_option (some n) fun cursor r => by simp [readPlain, eq_comm]
  | none => exact local_double negative mantissa left.length

/-- Digits that an exponent follows are no whole number. -/
theorem readAfterWhole_exponent {negative : Bool} {mantissa offset : Nat} {left cs : List Char}
    {c : Char} (hc : c = 'e' ∨ c = 'E') :
    readAfterWhole negative mantissa left ⟨offset, c :: cs⟩ =
      readOptionalExponent negative mantissa left.length ⟨offset, c :: cs⟩ := by
  rcases hc with rfl | rfl <;> simp [readAfterWhole]

theorem local_readAfterWhole (negative : Bool) (mantissa : Nat) (left : List Char) :
    Local EndsNumber (readAfterWhole negative mantissa left) := by
  have hexponent := local_readExponent negative mantissa left.length
  have hplain : ∀ offset cs, (∀ c ∈ List.head? cs, c ≠ '.' ∧ c ≠ 'e' ∧ c ≠ 'E') →
      readAfterWhole negative mantissa left ⟨offset, cs⟩ =
        readPlain negative mantissa left (if left = [] then whole? negative mantissa else none)
          ⟨offset, cs⟩ := by
    intro offset cs hcs
    have hpoint : cs.head? ≠ some '.' := fun h => (hcs '.' h).1 rfl
    have hlower : cs.head? ≠ some 'e' := fun h => (hcs 'e' h).2.1 rfl
    have hupper : cs.head? ≠ some 'E' := fun h => (hcs 'E' h).2.2 rfl
    have hwhole : (if left = [] ∧ cs.head? ≠ some 'e' ∧ cs.head? ≠ some 'E' then
        whole? negative mantissa else none) =
          if left = [] then whole? negative mantissa else none := by
      simp [hlower, hupper]
    unfold readAfterWhole
    split
    next h => exact absurd (congrArg List.head? h) hpoint
    next =>
      rw [readOptionalExponent_eq_double _ _ _ _ _ fun c hc => (hcs c hc).2]
      exact congrArg (readPlain negative mantissa left · ⟨offset, cs⟩) hwhole
  intro cs
  by_cases hcs : ∀ c ∈ cs.head?, c ≠ '.' ∧ c ≠ 'e' ∧ c ≠ 'E'
  · exact .of_eq (fun rest hrest c hc =>
      ⟨(hrest c hc).2.1, (hrest c hc).2.2.1, (hrest c hc).2.2.2.1⟩) hplain
      (local_readPlain negative mantissa left _ cs) hcs
  · obtain ⟨c, rest, rfl, hc⟩ := exists_cons_of_head? hcs
    by_cases hpoint : c = '.'
    · subst hpoint
      exact LocalAt.cons '.' (fun _ _ => rfl) (local_readFraction negative mantissa _ rest)
    by_cases hlower : c = 'e'
    · subst hlower
      exact LocalAt.cons 'e' (fun _ _ => readAfterWhole_exponent (.inl rfl)) (hexponent rest)
    · obtain rfl := not_not.mp fun hupper => hc ⟨hpoint, hlower, hupper⟩
      exact LocalAt.cons 'E' (fun _ _ => readAfterWhole_exponent (.inr rfl)) (hexponent rest)

/-- A number that starts with no zero starts with all digits that are there. -/
theorem readUnsigned_eq_span (negative : Bool) (offset : Nat) (cs : List Char)
    (hzero : cs.head? ≠ some '0') (hne : cs ≠ []) :
    readUnsigned negative ⟨offset, cs⟩ = match cs.span Char.isDigit with
      | ([], _) => .error ⟨.invalidNumber, offset + 1⟩
      | (d :: ds, rest) => readAfterWhole negative (gather 0 (d :: ds)).1
        (gather 0 (d :: ds)).2 ⟨offset + (d :: ds).length, rest⟩ := by
  unfold readUnsigned
  split
  next h => exact absurd h hne
  next h => exact absurd (congrArg List.head? h) hzero
  next =>
    cases cs.span Char.isDigit with
    | mk ds rest => cases ds <;> rfl

theorem local_readUnsigned (negative : Bool) : Local EndsNumber (readUnsigned negative) := by
  intro cs
  by_cases hzero : cs.head? = some '0'
  · obtain ⟨rest, rfl⟩ : ∃ rest, cs = '0' :: rest := List.head?_eq_some_iff.mp hzero
    by_cases hrest : ∀ c ∈ rest.head?, c.isDigit = false
    · refine LocalAt.behind ['0'] (fun _ h => not_isDigit_of_endsNumber h) ?_
        (local_readAfterWhole negative 0 [] rest) hrest
      intro offset rest hrest
      have hdigit : (rest.head?.map Char.isDigit).getD false = false := by
        cases rest with
        | nil => rfl
        | cons c rest => exact hrest c rfl
      refine ⟨offset + 1, ?_⟩
      show (if (rest.head?.map Char.isDigit).getD false then _ else _) = _
      rw [hdigit]
      rfl
    · obtain ⟨c, rest, rfl, hc⟩ := exists_cons_of_head? hrest
      refine .of_error fun offset => ⟨_, if_pos ?_⟩
      simpa using hc
  · refine .digits ?_ ?_
    · intro offset hds
      cases cs with
      | nil => exact ⟨_, rfl⟩
      | cons c rest =>
        rw [readUnsigned_eq_span negative offset _ hzero (by simp)]
        generalize (c :: rest).span Char.isDigit = p at hds
        obtain ⟨ds, rest⟩ := p
        obtain rfl : ds = [] := hds
        exact ⟨_, rfl⟩
    · intro d ds hd hds
      refine ⟨_, local_readAfterWhole negative (gather 0 (d :: ds)).1 (gather 0 (d :: ds)).2, ?_⟩
      intro offset rest hrest
      have hspan := span_isDigit_eq_iff.mpr ⟨rfl, hds, hrest⟩
      have hhead : (d :: ds ++ rest).head? ≠ some '0' := fun h => hzero (hd.trans h)
      rw [readUnsigned_eq_span negative offset _ hhead (by simp), hspan]

/-- **Numbers are read from their own characters.** -/
theorem local_readNumber : Local EndsNumber readNumber := by
  intro cs
  by_cases hminus : cs.head? = some '-'
  · obtain ⟨rest, rfl⟩ := List.head?_eq_some_iff.mp hminus
    exact LocalAt.cons '-' (fun _ _ => rfl) (local_readUnsigned true rest)
  · refine .of_eq (P := (· ≠ '-')) (fun rest hrest c hc => (hrest c hc).2.2.2.2.2) ?_
      (local_readUnsigned false cs) ?_
    · intro offset cs hcs
      unfold readNumber
      split
      next h => exact absurd rfl (hcs '-' (congrArg List.head? h))
      next => rfl
    · rintro c hc rfl
      exact hminus hc

end FitScript.Json
