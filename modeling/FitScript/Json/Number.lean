import FitScript.Json.Fault

/-!
# Numbers

Reading a number at the start of some characters.

A number without fraction and exponent is whole if it fits a word of 64 bits, signed if it is
negative. Every other number is a double. Its digits are gathered into a word of 64 bits for as
long as they fit: further digits before the point count as zeros, further digits after it are
passed over. The word becomes a double, which is then multiplied or divided by a power of ten;
both steps round.

* `readNumber`: the number, its end, and the characters after it.
-/

namespace FitScript.Json

/-! ## Digits -/

/-- The value of a decimal digit. -/
def digitValue (c : Char) : Nat :=
  c.toNat - '0'.toNat

/-- The number that digits stand for. -/
def digitsValue (ds : List Char) : Nat :=
  ds.foldl (fun n c => n * 10 + digitValue c) 0

/-- The first number that does not fit a word of 64 bits. -/
def wordLimit : Nat := 0x10000000000000000

/-- Digits appended to a number for as long as it fits a word, and the digits left. -/
def gather (n : Nat) : List Char → Nat × List Char
  | [] => (n, [])
  | c :: rest =>
    let longer := n * 10 + digitValue c
    if longer < wordLimit then gather longer rest else (n, c :: rest)

/-! ## Scaling -/

/-- The double nearest to `10^n`. -/
def powerOfTen (n : Nat) : Float :=
  Float.ofScientific 1 false n

/-- A double divided by `10^n`, at most `10^308` at a time. -/
def divideByPower (x : Float) (n : Nat) : Float :=
  if n ≤ 308 then x / powerOfTen n
  else if x == 0.0 then x
  else divideByPower (x / powerOfTen 308) (n - 308)
termination_by n

/-- The double for `mantissa · 10^exponent`, if doubles reach that far. -/
def scaled? (mantissa : Nat) (exponent : Int) : Option Float :=
  let x := Float.ofNat mantissa
  if exponent < 0 then some (divideByPower x exponent.natAbs)
  else if exponent ≤ 308 then
    let y := x * powerOfTen exponent.natAbs
    if y.isInf then none else some y
  else if mantissa = 0 then some x
  else none

/-- The double of a number that is written with a sign, a mantissa and an exponent. -/
def double (negative : Bool) (mantissa : Nat) (exponent : Int) (offset : Nat) :
    Except Fault Scalar :=
  match scaled? mantissa exponent with
  | none => .error ⟨.numberOutOfRange, offset⟩
  | some x => .ok (.float (if negative then -x else x))

/-! ## Reading -/

/-- Where characters are being read. -/
structure Cursor where
  /-- How many bytes stand before the rest. -/
  offset : Nat
  rest : List Char

/-- The cursor after some characters of one byte each. -/
def Cursor.past (cursor : Cursor) (passed : List Char) (rest : List Char) : Cursor :=
  ⟨cursor.offset + passed.length, rest⟩

/-- The largest exponent that is read; the digits after the one that passes it do not count. -/
def exponentLimit : Nat := 0x7FFFFFFF

/-- How many leading digits it takes to pass the largest exponent. -/
def digitsPastLimit (ds : List Char) : Nat :=
  ((List.range (ds.length + 1)).find? fun k => exponentLimit < digitsValue (ds.take k)).getD 0

/-- Reads what follows the letter of an exponent. `shift` is the exponent so far. -/
def readExponent (negative : Bool) (mantissa : Nat) (shift : Int) (cursor : Cursor) :
    Except Fault (Scalar × Cursor) :=
  let (down, cursor) : Bool × Cursor :=
    match cursor.rest with
    | '+' :: rest => (false, cursor.past ['+'] rest)
    | '-' :: rest => (true, cursor.past ['-'] rest)
    | _ => (false, cursor)
  let (ds, rest) := cursor.rest.span Char.isDigit
  let after := cursor.past ds rest
  match ds, rest with
  | [], [] => .error ⟨.endInValue, cursor.offset⟩
  | [], _ :: _ => .error ⟨.invalidNumber, cursor.offset + 1⟩
  | _ :: _, _ =>
    let n := digitsValue ds
    if n ≤ exponentLimit then
      (double negative mantissa (if down then shift - n else shift + n) after.offset).map (·, after)
    else if mantissa ≠ 0 ∧ !down then
      .error ⟨.numberOutOfRange, cursor.offset + digitsPastLimit ds⟩
    else (double negative 0 0 after.offset).map (·, after)

/-- Reads an exponent if there is one; the number is a double in any case. -/
def readOptionalExponent (negative : Bool) (mantissa : Nat) (shift : Int) (cursor : Cursor) :
    Except Fault (Scalar × Cursor) :=
  match cursor.rest with
  | 'e' :: rest => readExponent negative mantissa shift (cursor.past ['e'] rest)
  | 'E' :: rest => readExponent negative mantissa shift (cursor.past ['E'] rest)
  | _ => (double negative mantissa shift cursor.offset).map (·, cursor)

/-- Reads what follows a decimal point. -/
def readFraction (negative : Bool) (mantissa : Nat) (shift : Int) (cursor : Cursor) :
    Except Fault (Scalar × Cursor) :=
  let (ds, rest) := cursor.rest.span Char.isDigit
  match ds, rest with
  | [], [] => .error ⟨.endInValue, cursor.offset⟩
  | [], _ :: _ => .error ⟨.invalidNumber, cursor.offset + 1⟩
  | _ :: _, _ =>
    let (gathered, left) := gather mantissa ds
    readOptionalExponent negative gathered (shift - (ds.length - left.length : Nat))
      (cursor.past ds rest)

/-- The whole number with a sign, if it fits a word; a negative zero does not. -/
def whole? (negative : Bool) (n : Nat) : Option Scalar :=
  if !negative then some (.int n)
  else if 0 < n ∧ 2 * n ≤ wordLimit then some (.int (-n))
  else none

/-- Reads what follows the digits before a decimal point: `left` are those of them that did not
    fit the mantissa. -/
def readAfterWhole (negative : Bool) (mantissa : Nat) (left : List Char) (cursor : Cursor) :
    Except Fault (Scalar × Cursor) :=
  match cursor.rest with
  | '.' :: rest => readFraction negative mantissa left.length (cursor.past ['.'] rest)
  | rest =>
    let isWhole := left = [] ∧ rest.head? ≠ some 'e' ∧ rest.head? ≠ some 'E'
    match if isWhole then whole? negative mantissa else none with
    | some n => .ok (n, cursor)
    | none => readOptionalExponent negative mantissa left.length cursor

/-- Reads the digits of a number and what follows them. No number starts with a zero that
    another digit follows. -/
def readUnsigned (negative : Bool) (cursor : Cursor) : Except Fault (Scalar × Cursor) :=
  match cursor.rest with
  | [] => .error ⟨.endInValue, cursor.offset⟩
  | '0' :: rest =>
    if (rest.head?.map Char.isDigit).getD false then .error ⟨.invalidNumber, cursor.offset + 2⟩
    else readAfterWhole negative 0 [] (cursor.past ['0'] rest)
  | _ =>
    let (ds, rest) := cursor.rest.span Char.isDigit
    match ds with
    | [] => .error ⟨.invalidNumber, cursor.offset + 1⟩
    | _ :: _ =>
      let (mantissa, left) := gather 0 ds
      readAfterWhole negative mantissa left (cursor.past ds rest)

/-- Reads a number. -/
def readNumber (cursor : Cursor) : Except Fault (Scalar × Cursor) :=
  match cursor.rest with
  | '-' :: rest => readUnsigned true (cursor.past ['-'] rest)
  | _ => readUnsigned false cursor

end FitScript.Json
