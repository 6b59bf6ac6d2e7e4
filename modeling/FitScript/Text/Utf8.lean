/-!
# Bytes as text

The encoding UTF-8, read so that bytes which are no text do no harm: a byte string is cut into
characters and stray bytes, where a stray piece is the longest start of a character that its
next byte does not continue, or one byte that starts none.

* `encode`: the bytes of a text.
* `pieces`: the cut; every other reading is a view of it.
* `decode?`: the text of bytes without a stray piece.
* `decodeLossy`: the text with U+FFFD for each stray piece.
* `validLength`: how many bytes stand before the first stray piece.
-/

namespace FitScript.Text.Utf8

/-- Part of a byte string: a character, or bytes that encode none. -/
inductive Piece where
  | char (c : Char)
  | stray (bytes : List UInt8)

/-- The bytes of some characters. -/
def encodeChars (cs : List Char) : List UInt8 :=
  cs.flatMap String.utf8EncodeChar

/-- The bytes of a text. -/
def encode (s : String) : List UInt8 :=
  encodeChars s.toList

/-! ## Cutting bytes into pieces -/

/-- What a first byte announces: how many bytes follow it, and between which bounds the first
    of those lies. The bounds exclude overlong forms, surrogates and codes above U+10FFFF. -/
def announced (lead : UInt8) : Option (Nat × UInt8 × UInt8) :=
  if 0xC2 ≤ lead && lead ≤ 0xDF then some (1, 0x80, 0xBF)
  else if lead = 0xE0 then some (2, 0xA0, 0xBF)
  else if lead = 0xED then some (2, 0x80, 0x9F)
  else if 0xE1 ≤ lead && lead ≤ 0xEF then some (2, 0x80, 0xBF)
  else if lead = 0xF0 then some (3, 0x90, 0xBF)
  else if 0xF1 ≤ lead && lead ≤ 0xF3 then some (3, 0x80, 0xBF)
  else if lead = 0xF4 then some (3, 0x80, 0x8F)
  else none

/-- Whether a byte lies between 0x80 and 0xBF, as every byte of a character but its first. -/
def continues (b : UInt8) : Bool :=
  0x80 ≤ b && b ≤ 0xBF

/-- The low six bits of a byte. -/
def payload (b : UInt8) : Nat :=
  b.toNat % 64

/-- The pieces of a byte string, in order. -/
def pieces : List UInt8 → List Piece
  | [] => []
  | b0 :: rest0 =>
    if b0 < 0x80 then .char (Char.ofNat b0.toNat) :: pieces rest0
    else
      match announced b0 with
      | none => .stray [b0] :: pieces rest0
      | some (more, low, high) =>
        match rest0 with
        | [] => [.stray [b0]]
        | b1 :: rest1 =>
          if !(low ≤ b1 && b1 ≤ high) then .stray [b0] :: pieces (b1 :: rest1)
          else if more = 1 then
            .char (Char.ofNat (b0.toNat % 32 * 64 + payload b1)) :: pieces rest1
          else
            match rest1 with
            | [] => [.stray [b0, b1]]
            | b2 :: rest2 =>
              if !continues b2 then .stray [b0, b1] :: pieces (b2 :: rest2)
              else if more = 2 then
                .char (Char.ofNat ((b0.toNat % 16 * 64 + payload b1) * 64 + payload b2)) ::
                  pieces rest2
              else
                match rest2 with
                | [] => [.stray [b0, b1, b2]]
                | b3 :: rest3 =>
                  if !continues b3 then .stray [b0, b1, b2] :: pieces (b3 :: rest3)
                  else
                    .char (Char.ofNat
                      (((b0.toNat % 8 * 64 + payload b1) * 64 + payload b2) * 64 + payload b3)) ::
                      pieces rest3

/-! ## Views of the pieces -/

/-- The characters of pieces among which none is stray. -/
def charsOf? : List Piece → Option (List Char)
  | [] => some []
  | .char c :: rest => (charsOf? rest).map (c :: ·)
  | .stray _ :: _ => none

/-- The text that the bytes encode, if they encode one. -/
def decode? (bytes : List UInt8) : Option String :=
  (charsOf? (pieces bytes)).map String.ofList

/-- One character for one piece, U+FFFD for a stray one. -/
def Piece.shown : Piece → Char
  | .char c => c
  | .stray _ => '\uFFFD'

/-- The text of the bytes, with U+FFFD for each stray piece. -/
def decodeLossy (bytes : List UInt8) : String :=
  String.ofList ((pieces bytes).map Piece.shown)

/-- The bytes that stand before the first stray piece of a cut. -/
def validPrefixLength : List Piece → Nat
  | .char c :: rest => c.utf8Size + validPrefixLength rest
  | _ => 0

/-- How many bytes stand before the first stray piece. -/
def validLength (bytes : List UInt8) : Nat :=
  validPrefixLength (pieces bytes)

end FitScript.Text.Utf8
