import FitScript.Literal

/-!
# Reading literals

* `Literal.read?`: a reader of literals at the start of a text. It knows the three escapes and
  stops at the first quote that is not escaped.
* `read?_write`: a written literal is read back, whatever follows it.
* `write_append_inj`: so different texts have different literals, and none of them ends early.
* `mem_write`: which characters a literal has. It stays on one line.
-/

namespace FitScript.Literal

/-! ## The reader -/

/-- The character that a backslash and a character behind it stand for. -/
def unescape? (c : Char) : Option Char :=
  if c = '\\' then some '\\'
  else if c = '\x27' then some '\x27'
  else if c = 'n' then some '\n'
  else none

/-- The characters up to the quote that closes a literal, and what follows it. -/
def readInside? : List Char → Option (List Char × List Char)
  | [] => none
  | '\x27' :: rest => some ([], rest)
  | ['\\'] => none
  | '\\' :: e :: rest => do
    let escaped ← unescape? e
    let (inside, after) ← readInside? rest
    some (escaped :: inside, after)
  | c :: rest => (readInside? rest).map fun (inside, after) => (c :: inside, after)

/-- The text of the literal at the start of a text, and what follows the literal. -/
def read? : List Char → Option (List Char × List Char)
  | [] => none
  | c :: rest => if c = '\x27' then readInside? rest else none

/-! ## Reading what was written -/

/-- What stands for a character is read as this character. -/
theorem readInside?_escapeChar (c : Char) (rest : List Char) :
    readInside? (escapeChar c ++ rest) =
      (readInside? rest).map fun (inside, after) => (c :: inside, after) := by
  unfold escapeChar
  by_cases hslash : c = '\\'
  · subst hslash
    cases h : readInside? rest <;> simp [readInside?, unescape?, h]
  by_cases hquote : c = '\x27'
  · subst hquote
    cases h : readInside? rest <;> simp [readInside?, unescape?, h]
  by_cases hline : c = '\n'
  · subst hline
    cases h : readInside? rest <;> simp [readInside?, unescape?, h]
  · rw [if_neg hslash, if_neg hquote, if_neg hline, List.singleton_append]
    -- neither a quote nor a backslash: the character stands for itself
    rw [readInside?]
    · exact fun h => hquote h
    · exact fun h _ => hslash h
    · exact fun _ _ h _ => hslash h

theorem readInside?_flatMap (cs rest : List Char) :
    readInside? (cs.flatMap escapeChar ++ '\x27' :: rest) = some (cs, rest) := by
  induction cs with
  | nil => rfl
  | cons c cs ih =>
    rw [List.flatMap_cons, List.append_assoc, readInside?_escapeChar, ih]
    rfl

theorem toList_write (s : String) :
    (write s).toList = '\x27' :: (s.toList.flatMap escapeChar ++ ['\x27']) := by
  rw [write, String.toList_ofList]

/-- **A literal is read back**, and nothing of what follows it is read with it. -/
theorem read?_write (s : String) (rest : List Char) :
    read? ((write s).toList ++ rest) = some (s.toList, rest) := by
  have hshape : (write s).toList ++ rest =
      '\x27' :: (s.toList.flatMap escapeChar ++ '\x27' :: rest) := by
    simp [toList_write]
  rw [hshape, read?, if_pos rfl, readInside?_flatMap]

/-- A literal tells its text, and where it ends. -/
theorem write_append_inj {s t : String} {x y : List Char}
    (h : (write s).toList ++ x = (write t).toList ++ y) : s = t ∧ x = y := by
  have hread := read?_write s x
  rw [h, read?_write, Option.some.injEq, Prod.mk.injEq] at hread
  exact ⟨(String.toList_inj.mp hread.1).symm, hread.2.symm⟩

/-! ## Characters -/

/-- A character is escaped or stands for itself. Line feeds are escaped. -/
theorem mem_escapeChar {c x : Char} (h : x ∈ escapeChar c) :
    x ∈ ['\\', '\x27', 'n'] ∨ x = c ∧ x ≠ '\n' := by
  unfold escapeChar at h
  by_cases hslash : c = '\\'
  · rw [if_pos hslash, List.mem_cons, List.mem_singleton] at h
    rcases h with rfl | rfl <;> exact .inl (by decide)
  by_cases hquote : c = '\x27'
  · rw [if_neg hslash, if_pos hquote, List.mem_cons, List.mem_singleton] at h
    rcases h with rfl | rfl <;> exact .inl (by decide)
  by_cases hline : c = '\n'
  · rw [if_neg hslash, if_neg hquote, if_pos hline, List.mem_cons, List.mem_singleton] at h
    rcases h with rfl | rfl <;> exact .inl (by decide)
  · rw [if_neg hslash, if_neg hquote, if_neg hline, List.mem_singleton] at h
    exact .inr ⟨h, h ▸ hline⟩

/-- A literal has no characters but those of its text and of its escapes. -/
theorem mem_write {s : String} {x : Char} (h : x ∈ (write s).toList) :
    x ∈ ['\\', '\x27', 'n'] ∨ x ∈ s.toList ∧ x ≠ '\n' := by
  rw [toList_write, List.mem_cons, List.mem_append, List.mem_flatMap, List.mem_singleton] at h
  rcases h with rfl | ⟨c, hc, hx⟩ | rfl
  · exact .inl (by decide)
  · exact (mem_escapeChar hx).imp_right fun ⟨heq, hline⟩ => ⟨heq ▸ hc, hline⟩
  · exact .inl (by decide)

/-- A literal stays on one line. -/
theorem newline_notMem_write (s : String) : '\n' ∉ (write s).toList := by
  intro h
  rcases mem_write h with hescape | ⟨-, hline⟩
  · exact absurd hescape (by decide)
  · exact hline rfl

/-- A literal has a null character only if its text has one. -/
theorem null_notMem_write {s : String} (h : '\x00' ∉ s.toList) :
    '\x00' ∉ (write s).toList := by
  intro hmem
  rcases mem_write hmem with hescape | ⟨htext, -⟩
  · exact absurd hescape (by decide)
  · exact h htext

end FitScript.Literal
