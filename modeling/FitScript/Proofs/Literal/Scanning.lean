import FitScript.Proofs.Literal.Reading

/-!
# Where literals end

A literal says itself where it ends, whatever its text is and whatever stands behind it.

* `Literal.scan?`: a scan that lets a backslash stand for itself where it escapes nothing. It reads
  all that `read?` reads.
* `scan?_append`: a literal that has ended is not touched by what follows it.
* `scan?_front`: so no proper beginning of a literal is one.
* `write_delimitsItself`: all of it in one.
-/

namespace FitScript.Literal

/-! ## The scan -/

/-- A character in front of what has been scanned. -/
def push (c : Char) : Option (List Char × List Char) → Option (List Char × List Char) :=
  Option.map fun (inside, after) => (c :: inside, after)

/-- The characters up to the first quote that is not escaped, and what follows it. A backslash
    that escapes nothing stands for itself, as every other character does. -/
def scanInside? : List Char → Option (List Char × List Char)
  | [] => none
  | '\x27' :: rest => some ([], rest)
  | '\\' :: e :: rest =>
    match unescape? e with
    | some escaped => push escaped (scanInside? rest)
    | none => push '\\' (scanInside? (e :: rest))
  | c :: rest => push c (scanInside? rest)

/-- The text of the literal at the start of a text, and what follows the literal. -/
def scan? : List Char → Option (List Char × List Char)
  | [] => none
  | c :: rest => if c = '\x27' then scanInside? rest else none

/-! ## Scanning and reading -/

section

variable {cs inside after : List Char} {c : Char}

theorem push_eq_some_iff {r : Option (List Char × List Char)} :
    push c r = some (inside, after) ↔ ∃ cs, r = some (cs, after) ∧ c :: cs = inside := by
  rw [push, Option.map_eq_some_iff]
  simp only [Prod.exists, Prod.mk.injEq]
  constructor
  · rintro ⟨cs, _, hr, hinside, rfl⟩
    exact ⟨cs, hr, hinside⟩
  · rintro ⟨cs, hr, hinside⟩
    exact ⟨cs, after, hr, hinside, rfl⟩

/-- What is read is scanned alike. -/
theorem scanInside?_of_readInside? (h : readInside? cs = some (inside, after)) :
    scanInside? cs = some (inside, after) := by
  fun_induction readInside? cs generalizing inside with
  | case1 | case3 => cases h
  | case2 rest => exact h
  | case4 e rest ih =>
    simp only [Option.bind_eq_bind, Option.bind_eq_some_iff, Option.some.injEq, Prod.exists,
      Prod.mk.injEq] at h
    obtain ⟨escaped, he, cs, behind, hrest, rfl, rfl⟩ := h
    rw [scanInside?, he]
    exact push_eq_some_iff.mpr ⟨cs, ih hrest, rfl⟩
  | case5 c rest hquote hend hescape ih =>
    obtain ⟨⟨cs, behind⟩, hrest, heq⟩ := Option.map_eq_some_iff.mp h
    obtain ⟨rfl, rfl⟩ := Prod.mk.inj heq
    rw [scanInside?]
    · exact push_eq_some_iff.mpr ⟨cs, ih hrest, rfl⟩
    · exact hquote
    · exact fun e rest' hc hrest => hescape e rest' hc hrest

theorem scan?_of_read? (h : read? cs = some (inside, after)) : scan? cs = some (inside, after) := by
  cases cs with
  | nil => cases h
  | cons c rest =>
    by_cases hquote : c = '\x27'
    · rw [read?, if_pos hquote] at h
      rw [scan?, if_pos hquote]
      exact scanInside?_of_readInside? h
    · rw [read?, if_neg hquote] at h
      cases h

/-! ## What follows a literal -/

theorem scanInside?_append (h : scanInside? cs = some (inside, after)) (more : List Char) :
    scanInside? (cs ++ more) = some (inside, after ++ more) := by
  fun_induction scanInside? cs generalizing inside with
  | case1 => cases h
  | case2 rest =>
    obtain ⟨rfl, rfl⟩ := Prod.mk.inj (Option.some.inj h)
    rfl
  | case3 e rest escaped he ih =>
    obtain ⟨cs, hrest, rfl⟩ := push_eq_some_iff.mp h
    rw [List.cons_append, List.cons_append, scanInside?, he]
    exact push_eq_some_iff.mpr ⟨cs, ih hrest, rfl⟩
  | case4 e rest he ih =>
    obtain ⟨cs, hrest, rfl⟩ := push_eq_some_iff.mp h
    rw [List.cons_append, List.cons_append, scanInside?, he]
    exact push_eq_some_iff.mpr ⟨cs, ih hrest, rfl⟩
  | case5 c rest hquote hescape ih =>
    obtain ⟨cs, hrest, rfl⟩ := push_eq_some_iff.mp h
    -- a backslash at the end of the text would leave nothing to close the literal
    have hslash : c ≠ '\\' := by
      rintro rfl
      cases rest with
      | nil => cases hrest
      | cons e rest => exact hescape e rest rfl rfl
    rw [List.cons_append, scanInside?]
    · exact push_eq_some_iff.mpr ⟨cs, ih hrest, rfl⟩
    · exact hquote
    · exact fun _ _ hc _ => hslash hc

/-- A literal that has ended is not touched by what follows it. -/
theorem scan?_append (h : scan? cs = some (inside, after)) (more : List Char) :
    scan? (cs ++ more) = some (inside, after ++ more) := by
  cases cs with
  | nil => cases h
  | cons c rest =>
    by_cases hquote : c = '\x27'
    · rw [scan?, if_pos hquote] at h
      rw [List.cons_append, scan?, if_pos hquote]
      exact scanInside?_append h more
    · rw [scan?, if_neg hquote] at h
      cases h

/-- A literal does not begin with a literal that is shorter. -/
theorem scan?_front {front : List Char} (h : scan? cs = some (inside, [])) (hfront : front <+: cs)
    (hne : front ≠ cs) : scan? front = none := by
  obtain ⟨more, rfl⟩ := hfront
  rw [Option.eq_none_iff_forall_ne_some]
  rintro ⟨short, behind⟩ hshort
  have hscan := scan?_append hshort more
  rw [h, Option.some.injEq, Prod.mk.injEq, List.nil_eq_append_iff] at hscan
  exact hne (by rw [hscan.2.2, List.append_nil])

end

theorem scan?_write (s : String) (rest : List Char) :
    scan? ((write s).toList ++ rest) = some (s.toList, rest) :=
  scan?_of_read? (read?_write s rest)

/-- **A literal delimits itself**: with any text behind it, exactly the literal is scanned, as the
    text it was written for. It stays on one line, no other literal with anything behind it looks
    the same, and no part in front of its last quote is a literal already. -/
theorem write_delimitsItself (s : String) (rest : List Char) :
    scan? ((write s).toList ++ rest) = some (s.toList, rest) ∧ '\n' ∉ (write s).toList ∧
      (∀ t others, (write t).toList ++ others = (write s).toList ++ rest → t = s ∧ others = rest) ∧
      ∀ front, front <+: (write s).toList → front ≠ (write s).toList → scan? front = none := by
  refine ⟨scan?_write s rest, newline_notMem_write s, fun t others h => write_append_inj h, ?_⟩
  intro front hfront hne
  have hwhole := scan?_write s []
  rw [List.append_nil] at hwhole
  exact scan?_front hwhole hfront hne

/-- A text that ends in backslashes and quotes, with a literal behind it. What stands in front of
    the closing quote ends in a quote, and is no literal. -/
theorem write_delimitsItself_backslashes :
    (write "a\n\\\x27").toList = "\x27a\\n\\\\\\\x27\x27".toList ∧
      scan? ((write "a\n\\\x27").toList ++ "\x27b\x27".toList) =
        some ("a\n\\\x27".toList, "\x27b\x27".toList) ∧
      "\x27a\\n\\\\\\\x27".toList <+: (write "a\n\\\x27").toList ∧
      scan? "\x27a\\n\\\\\\\x27".toList = none := by
  have hwritten : (write "a\n\\\x27").toList = "\x27a\\n\\\\\\\x27\x27".toList := by decide
  have hfront : "\x27a\\n\\\\\\\x27".toList <+: (write "a\n\\\x27").toList := by
    rw [hwritten]
    decide
  obtain ⟨hscan, -, -, hshort⟩ := write_delimitsItself "a\n\\\x27" "\x27b\x27".toList
  exact ⟨hwritten, hscan, hfront, hshort _ hfront (by rw [hwritten]; decide)⟩

end FitScript.Literal
