import FitScript.Text.Blank
import FitScript.Text.Utf8

/-!
# Headers of data files

The first record of a file of comma-separated values. Records end at a line feed or a carriage
return; a field may be quoted, with quotes inside it doubled. Empty lines before the first
record do not count, and neither does a byte order mark at the start of the file.

* `Header.fields`: the fields of the first record as bytes.
* `Header.columns`: the fields as texts without the blanks around them.
-/

namespace FitScript.Header

/-! ## Fields -/

/-- The byte `,`. -/
def comma : UInt8 := 0x2C

/-- The byte of a double quote. -/
def quote : UInt8 := 0x22

/-- Whether a byte ends a record. -/
def endsRecord (b : UInt8) : Bool :=
  b == 0x0A || b == 0x0D

/-- How a field goes on. -/
inductive Mode where
  /-- No byte of the field has been read. -/
  | start
  /-- Quotes stand for themselves. -/
  | plain
  /-- Between quotes, where only a quote is special. -/
  | quoted
  /-- After a quote between quotes. -/
  | closing

/-- One more byte at the start of the first field. -/
def pushByte (b : UInt8) : List (List UInt8) → List (List UInt8)
  | [] => [[b]]
  | field :: fields => (b :: field) :: fields

/-- The fields up to the end of a record, the first of which is in some mode. A byte that
    follows a closing quote belongs to the field, and so does every quote after it. -/
def fieldsFrom : Mode → List UInt8 → List (List UInt8)
  | _, [] => [[]]
  | .quoted, b :: rest =>
    if b = quote then fieldsFrom .closing rest else pushByte b (fieldsFrom .quoted rest)
  | .closing, b :: rest =>
    if b = quote then pushByte b (fieldsFrom .quoted rest)
    else if b = comma then [] :: fieldsFrom .start rest
    else if endsRecord b then [[]]
    else pushByte b (fieldsFrom .plain rest)
  | .start, b :: rest =>
    if b = quote then fieldsFrom .quoted rest
    else if b = comma then [] :: fieldsFrom .start rest
    else if endsRecord b then [[]]
    else pushByte b (fieldsFrom .plain rest)
  | .plain, b :: rest =>
    if b = comma then [] :: fieldsFrom .start rest
    else if endsRecord b then [[]]
    else pushByte b (fieldsFrom .plain rest)

/-- A file without the byte order mark at its start. -/
def dropMark : List UInt8 → List UInt8
  | 0xEF :: 0xBB :: 0xBF :: rest => rest
  | content => content

/-- The fields of the first record of a file; none if the file has no record. -/
def fields (content : List UInt8) : List (List UInt8) :=
  match (dropMark content).dropWhile endsRecord with
  | [] => []
  | record => fieldsFrom .start record

/-! ## Columns -/

/-- The message about a field that is no text. -/
def notTextMessage (index validLength : Nat) : String :=
  s!"CSV parse error: record 0 (line 1, field: {index}, byte: 0): invalid utf-8: " ++
    s!"invalid UTF-8 in field {index} near byte index {validLength}"

/-- The texts of fields, the first of which has an index. -/
def textsFrom (index : Nat) : List (List UInt8) → Except String (List String)
  | [] => .ok []
  | field :: rest =>
    match Text.Utf8.decode? field with
    | none => .error (notTextMessage index (Text.Utf8.validLength field))
    | some text => (textsFrom (index + 1) rest).map (text :: ·)

/-- The column names of a file (`DataSource.columns`). -/
def columns (content : List UInt8) : Except String (List String) :=
  (textsFrom 0 (fields content)).map (·.map Text.trim)

end FitScript.Header
