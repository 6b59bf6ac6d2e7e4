import FitScript.Proofs.Literal.Reading
import FitScript.Text.Utf8.Lemmas

/-!
# Literals in bytes

R sees the bytes of a literal and not its characters.

* `Literal.readBytes?`: the reader of literals, on bytes.
* `readBytes?_encode_write`: it reads the bytes of a written literal as the bytes of its text. The
  bytes of longer characters are no quotes and no backslashes.
-/

namespace FitScript.Literal

open Text.Utf8

/-! ## The reader -/

/-- The byte `'`. -/
def quoteByte : UInt8 := 0x27

/-- The byte of a backslash. -/
def backslashByte : UInt8 := 0x5C

/-- The byte that a backslash and a byte behind it stand for. -/
def unescapeByte? (b : UInt8) : Option UInt8 :=
  if b = backslashByte then some backslashByte
  else if b = quoteByte then some quoteByte
  else if b = 0x6E then some 0x0A
  else none

/-- The bytes up to the quote that closes a literal, and what follows it. -/
def readBytesInside? : List UInt8 → Option (List UInt8 × List UInt8)
  | [] => none
  | b :: rest =>
    if b = quoteByte then some ([], rest)
    else if b = backslashByte then
      match rest with
      | [] => none
      | e :: rest => do
        let escaped ← unescapeByte? e
        let (inside, after) ← readBytesInside? rest
        some (escaped :: inside, after)
    else (readBytesInside? rest).map fun (inside, after) => (b :: inside, after)

/-- The bytes of the literal at the start of some bytes, and what follows the literal. -/
def readBytes? : List UInt8 → Option (List UInt8 × List UInt8)
  | [] => none
  | b :: rest => if b = quoteByte then readBytesInside? rest else none

/-! ## Reading what was written -/

/-- A quote closes the literal. -/
theorem readBytesInside?_quote (rest : List UInt8) :
    readBytesInside? (quoteByte :: rest) = some ([], rest) := by
  rw [readBytesInside?.eq_def]
  simp only [if_true]

/-- A backslash and the byte behind it stand for one byte. -/
theorem readBytesInside?_escape {e b : UInt8} (h : unescapeByte? e = some b) (rest : List UInt8) :
    readBytesInside? ([backslashByte, e] ++ rest) =
      (readBytesInside? rest).map fun (inside, after) => ([b] ++ inside, after) := by
  have hquote : backslashByte ≠ quoteByte := by decide
  simp only [List.cons_append, List.nil_append, readBytesInside?, if_neg hquote, if_true, h]
  cases readBytesInside? rest <;> rfl

/-- Bytes that are no quotes and no backslashes stand for themselves. -/
theorem readBytesInside?_append {bytes : List UInt8}
    (h : ∀ b ∈ bytes, b ≠ quoteByte ∧ b ≠ backslashByte) (rest : List UInt8) :
    readBytesInside? (bytes ++ rest) =
      (readBytesInside? rest).map fun (inside, after) => (bytes ++ inside, after) := by
  induction bytes with
  | nil => simp
  | cons b bytes ih =>
    obtain ⟨⟨hquote, hslash⟩, hbytes⟩ := List.forall_mem_cons.mp h
    rw [List.cons_append, readBytesInside?.eq_def]
    simp only [if_neg hquote, if_neg hslash, ih hbytes, Option.map_map]
    rfl

/-- The bytes of a character that is no quote and no backslash are neither. -/
theorem ne_of_mem_utf8EncodeChar {c : Char} (hquote : c ≠ '\x27') (hslash : c ≠ '\\') :
    ∀ b ∈ String.utf8EncodeChar c, b ≠ quoteByte ∧ b ≠ backslashByte := by
  intro b hb
  constructor
  · rintro rfl
    have hcode := code_eq_of_mem_utf8EncodeChar hb (by decide)
    exact hquote (Char.ext (UInt32.toNat_inj.mp hcode))
  · rintro rfl
    have hcode := code_eq_of_mem_utf8EncodeChar hb (by decide)
    exact hslash (Char.ext (UInt32.toNat_inj.mp hcode))

/-- What stands for a character is read as the bytes of this character. -/
theorem readBytesInside?_escapeChar (c : Char) (rest : List UInt8) :
    readBytesInside? (encodeChars (escapeChar c) ++ rest) =
      (readBytesInside? rest).map fun (inside, after) =>
        (String.utf8EncodeChar c ++ inside, after) := by
  unfold escapeChar
  by_cases hslash : c = '\\'
  · subst hslash
    exact readBytesInside?_escape (by decide) rest
  by_cases hquote : c = '\x27'
  · subst hquote
    exact readBytesInside?_escape (by decide) rest
  by_cases hline : c = '\n'
  · subst hline
    exact readBytesInside?_escape (by decide) rest
  · have hbytes : encodeChars [c] = String.utf8EncodeChar c := List.flatMap_singleton ..
    rw [if_neg hslash, if_neg hquote, if_neg hline, hbytes,
      readBytesInside?_append (ne_of_mem_utf8EncodeChar hquote hslash)]

theorem readBytesInside?_flatMap (cs : List Char) (rest : List UInt8) :
    readBytesInside? (encodeChars (cs.flatMap escapeChar) ++ quoteByte :: rest) =
      some (encodeChars cs, rest) := by
  induction cs with
  | nil => exact readBytesInside?_quote rest
  | cons c cs ih =>
    rw [List.flatMap_cons, encodeChars_append, List.append_assoc, readBytesInside?_escapeChar, ih]
    rfl

/-- **The bytes of a literal are read as the bytes of its text**, and nothing of what follows them
    is read with them. -/
theorem readBytes?_encode_write (s : String) (rest : List UInt8) :
    readBytes? (encode (write s) ++ rest) = some (encode s, rest) := by
  have hshape : encode (write s) ++ rest =
      quoteByte :: (encodeChars (s.toList.flatMap escapeChar) ++ quoteByte :: rest) := by
    have hquote : encodeChars ['\x27'] = [quoteByte] := by decide
    have hsplit : (write s).toList = ['\x27'] ++ (s.toList.flatMap escapeChar ++ ['\x27']) :=
      toList_write s
    rw [encode, hsplit, encodeChars_append, encodeChars_append, hquote]
    simp
  rw [hshape, readBytes?, if_pos rfl, readBytesInside?_flatMap]
  rfl

end FitScript.Literal
