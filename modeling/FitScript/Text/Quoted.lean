import FitScript.Text.Hidden
import FitScript.Text.Utf8

/-!
# Quoted text

Texts shown in double quotes for a reader of messages: quotes, backslashes and line ends are
escaped with a backslash, hidden characters are shown by their code point, and bytes that are no
text by their value.

* `quote`: a text; `quoteList`: a list of texts in brackets; `quoteBytes`: bytes that are mostly
  text, as file names are.
-/

namespace FitScript.Text

/-- The digits of a number in base sixteen, the letters in lower case. -/
def hexDigits (n : Nat) : List Char :=
  Nat.toDigits 16 n

/-- What stands for one character between double quotes. -/
def showChar (c : Char) : List Char :=
  if c = '\x00' then ['\\', '0']
  else if c = '\t' then ['\\', 't']
  else if c = '\r' then ['\\', 'r']
  else if c = '\n' then ['\\', 'n']
  else if c = '\\' then ['\\', '\\']
  else if c = '"' then ['\\', '"']
  else if Hidden.isHidden c then ['\\', 'u', '{'] ++ hexDigits c.toNat ++ ['}']
  else [c]

/-- A text in double quotes. -/
def quote (s : String) : String :=
  String.ofList (['"'] ++ s.toList.flatMap showChar ++ ['"'])

/-- Texts in double quotes, between brackets. -/
def quoteList (texts : List String) : String :=
  "[" ++ ", ".intercalate (texts.map quote) ++ "]"

/-- A byte that is no text: its value with two digits, the letters in upper case. -/
def showByte (b : UInt8) : List Char :=
  let digits := (hexDigits b.toNat).map Char.toUpper
  ['\\', 'x'] ++ List.replicate (2 - digits.length) '0' ++ digits

/-- What stands for one piece of a byte string between double quotes. -/
def showPiece : Utf8.Piece → List Char
  | .char c => showChar c
  | .stray bytes => bytes.flatMap showByte

/-- Bytes in double quotes: their text where they are text. -/
def quoteBytes (bytes : List UInt8) : String :=
  String.ofList (['"'] ++ (Utf8.pieces bytes).flatMap showPiece ++ ['"'])

end FitScript.Text
