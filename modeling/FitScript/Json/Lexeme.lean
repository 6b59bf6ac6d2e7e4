import FitScript.Json.Number

/-!
# Lexemes

The lexemes of a JSON text: brackets, commas, colons and scalars, with the offsets between which
they stand. Only the first lexeme that is no JSON is kept; nothing is read after it.

* `lex`: the lexemes of a text.
* `readText`: a string up to its closing quote.
-/

namespace FitScript.Json

/-- One lexeme without its place. -/
inductive Token where
  | leftBracket
  | rightBracket
  | leftBrace
  | rightBrace
  | comma
  | colon
  | scalar (s : Scalar)
  /-- A string that cannot be read. -/
  | brokenText (fault : Fault)
  /-- Anything else that cannot be read. -/
  | broken (fault : Fault)

/-- A lexeme with the offsets before and after it. -/
structure Lexeme where
  token : Token
  start : Nat
  stop : Nat

/-! ## Strings -/

/-- The value of a hexadecimal digit. -/
def hexValue? (c : Char) : Option Nat :=
  if c.isDigit then some (c.toNat - '0'.toNat)
  else if 'a' ≤ c ∧ c ≤ 'f' then some (c.toNat - 'a'.toNat + 10)
  else if 'A' ≤ c ∧ c ≤ 'F' then some (c.toNat - 'A'.toNat + 10)
  else none

/-- The value of four hexadecimal digits. -/
def hexWord? (a b c d : Char) : Option Nat := do
  let a ← hexValue? a
  let b ← hexValue? b
  let c ← hexValue? c
  let d ← hexValue? d
  pure (((a * 16 + b) * 16 + c) * 16 + d)

/-- What an escape of two characters stands for. -/
def unescape? (c : Char) : Option Char :=
  if c = '"' ∨ c = '\\' ∨ c = '/' then some c
  else if c = 'b' then some '\x08'
  else if c = 'f' then some '\x0C'
  else if c = 'n' then some '\n'
  else if c = 'r' then some '\r'
  else if c = 't' then some '\t'
  else none

/-- How many bytes some characters take. -/
def byteLength (cs : List Char) : Nat :=
  cs.foldr (fun c size => c.utf8Size + size) 0

/-- The fault of an escape whose four bytes of digits are not there or are no digits. -/
def digitsFault (offset : Nat) (digits : List Char) : Fault :=
  let available := byteLength digits
  if available < 4 then ⟨.endInString, offset + available⟩ else ⟨.invalidEscape, offset + 4⟩

/-- The fault of a first half of a surrogate pair that no second half follows. -/
def unpairedFault (offset : Nat) : List Char → Fault
  | [] => ⟨.endInString, offset⟩
  | ['\\'] => ⟨.endInString, offset + 1⟩
  | '\\' :: 'u' :: digits => digitsFault (offset + 2) digits
  | '\\' :: _ => ⟨.surrogateUnpaired, offset + 2⟩
  | _ => ⟨.surrogateUnpaired, offset + 1⟩

/-- The character of a surrogate pair. -/
def pairedChar (high low : Nat) : Char :=
  Char.ofNat ((high - 0xD800) * 0x400 + (low - 0xDC00) + 0x10000)

/-- The characters of a string whose opening quote stands before `offset`, and the place after
    its closing quote. -/
def readText (offset : Nat) : List Char → Except Fault (List Char × Cursor)
  | [] => .error ⟨.endInString, offset⟩
  | '"' :: rest => .ok ([], ⟨offset + 1, rest⟩)
  | ['\\'] => .error ⟨.endInString, offset + 1⟩
  | '\\' :: 'u' :: a :: b :: c :: d :: rest =>
    match hexWord? a b c d with
    | none => .error (digitsFault (offset + 2) (a :: b :: c :: d :: rest))
    | some high =>
      if high < 0xD800 ∨ 0xE000 ≤ high then
        (readText (offset + 6) rest).map fun (cs, after) => (Char.ofNat high :: cs, after)
      else if 0xDC00 ≤ high then .error ⟨.loneSurrogate, offset + 6⟩
      else
        match rest with
        | '\\' :: 'u' :: e :: f :: g :: h :: rest =>
          match hexWord? e f g h with
          | none => .error (digitsFault (offset + 8) (e :: f :: g :: h :: rest))
          | some low =>
            if 0xDC00 ≤ low ∧ low < 0xE000 then
              (readText (offset + 12) rest).map fun (cs, after) => (pairedChar high low :: cs, after)
            else .error ⟨.loneSurrogate, offset + 12⟩
        | rest => .error (unpairedFault (offset + 6) rest)
  | '\\' :: 'u' :: digits => .error (digitsFault (offset + 2) digits)
  | '\\' :: c :: rest =>
    match unescape? c with
    | some e => (readText (offset + 2) rest).map fun (cs, after) => (e :: cs, after)
    | none => .error ⟨.invalidEscape, offset + 2⟩
  | c :: rest =>
    if c.toNat < 0x20 then .error ⟨.controlCharacter, offset + 1⟩
    else (readText (offset + c.utf8Size) rest).map fun (cs, after) => (c :: cs, after)

/-! ## Words -/

/-- Reads the given characters. -/
def readWord : List Char → Cursor → Except Fault Cursor
  | [], cursor => .ok cursor
  | w :: word, cursor =>
    match cursor.rest with
    | [] => .error ⟨.endInValue, cursor.offset⟩
    | c :: rest =>
      if c = w then readWord word ⟨cursor.offset + 1, rest⟩
      else .error ⟨.identifierExpected, cursor.offset + 1⟩

/-! ## Lexemes -/

/-- A scalar, or the fault of one, as a lexeme. -/
def scalarToken : Except Fault (Scalar × Cursor) → Token × Option Cursor
  | .ok (s, after) => (.scalar s, some after)
  | .error fault => (.broken fault, none)

/-- A string, or the fault of one, as a lexeme. -/
def textToken : Except Fault (List Char × Cursor) → Token × Option Cursor
  | .ok (cs, after) => (.scalar (.text (String.ofList cs)), some after)
  | .error fault => (.brokenText fault, none)

/-- The lexeme that starts with `c`, and the place after it if it could be read. -/
def readToken (offset : Nat) (c : Char) (rest : List Char) : Token × Option Cursor :=
  let next : Cursor := ⟨offset + 1, rest⟩
  match c with
  | '[' => (.leftBracket, some next)
  | ']' => (.rightBracket, some next)
  | '{' => (.leftBrace, some next)
  | '}' => (.rightBrace, some next)
  | ',' => (.comma, some next)
  | ':' => (.colon, some next)
  | '"' => textToken (readText (offset + 1) rest)
  | 'n' => scalarToken ((readWord ['u', 'l', 'l'] next).map (.null, ·))
  | 't' => scalarToken ((readWord ['r', 'u', 'e'] next).map (.bool true, ·))
  | 'f' => scalarToken ((readWord ['a', 'l', 's', 'e'] next).map (.bool false, ·))
  | _ =>
    if c = '-' ∨ c.isDigit then scalarToken (readNumber ⟨offset, c :: rest⟩)
    else (.broken ⟨.valueExpected, offset + 1⟩, none)

/-- The characters that may stand between lexemes. -/
def isGap (c : Char) : Bool :=
  c == ' ' || c == '\n' || c == '\t' || c == '\r'

/-- The lexemes of some characters, at most `limit` characters and lexemes of them. -/
def lexFrom : (limit : Nat) → Cursor → List Lexeme
  | 0, _ => []
  | limit + 1, ⟨offset, cs⟩ =>
    match cs with
    | [] => []
    | c :: rest =>
      if isGap c then lexFrom limit ⟨offset + 1, rest⟩
      else
        match readToken offset c rest with
        | (token, some after) => ⟨token, offset, after.offset⟩ :: lexFrom limit after
        | (token, none) => [⟨token, offset, offset⟩]

/-- The lexemes of a text. Each takes at least one character, so the limit is never reached. -/
def lex (text : List Char) : List Lexeme :=
  lexFrom text.length ⟨0, text⟩

end FitScript.Json
