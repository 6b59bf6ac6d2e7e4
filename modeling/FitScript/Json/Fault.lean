import FitScript.Json.Value
import FitScript.Text.Quoted
import FitScript.Decimal.Layout

/-!
# Faults

What can be wrong with a document, and where.

* `Problem`: one way in which a document is not JSON, or not the JSON that is asked for.
* `Fault`: a problem with the offset, in bytes, up to which the document was read.
* `Position.ofOffset`: line and column of an offset.
* `Problem.message`: the wording.
-/

namespace FitScript.Json

/-- What stands where something else was expected. -/
inductive Found where
  | scalar (s : Scalar)
  | sequence
  | map

/-- One way in which a document is not what it should be. -/
inductive Problem where
  /-- The text ends inside a list. -/
  | endInList
  /-- The text ends inside an object. -/
  | endInObject
  /-- The text ends inside a string. -/
  | endInString
  /-- The text ends where a value should be. -/
  | endInValue
  | colonExpected
  | listEndExpected
  | objectEndExpected
  | identifierExpected
  | valueExpected
  | invalidEscape
  | invalidNumber
  | numberOutOfRange
  | controlCharacter
  | keyNotText
  | loneSurrogate
  | surrogateUnpaired
  | trailingComma
  | trailingCharacters
  | nestedTooDeep
  /-- A value of another type than the one asked for. -/
  | invalidType (found : Found) (expected : String)
  | missingField (field : String)
  | duplicateField (field : String)
  | unknownField (field : String) (expected : List String)
  | unknownVariant (variant : String) (expected : List String)
  /-- A value that has none of the forms of a type. -/
  | noVariant (type : String)
  /-- A list of fields that ends too early. -/
  | tooFewItems (count : Nat) (expected : String)
  /-- A list of fields that goes on for too long. -/
  | tooManyItems (count : Nat)
  /-- A path that is no text cannot be written. -/
  | pathNotText

/-- A problem, and how many bytes of the document stand before the place where it is reported. -/
structure Fault where
  problem : Problem
  offset : Nat

/-! ## Wording -/

/-- Doubles in messages have an exponent below 0.00001 and from 10^16 on. -/
def doubleLayout : Decimal.Layout :=
  ⟨-5, 15⟩

/-- The description of a scalar in a message. -/
def Scalar.describe : Scalar → String
  | .null => "null"
  | .bool b => s!"boolean `{b}`"
  | .int n => s!"integer `{n}`"
  | .float x => "floating point `" ++ Decimal.writeDouble doubleLayout x ++ "`"
  | .text s => "string " ++ Text.quote s

/-- The description of what was found. -/
def Found.describe : Found → String
  | .scalar s => s.describe
  | .sequence => "sequence"
  | .map => "map"

/-- Alternatives in a message. -/
def oneOf (names : List String) : String :=
  match names with
  | [a, b] => s!"expected `{a}` or `{b}`"
  | _ => "expected one of " ++ ", ".intercalate (names.map fun name => s!"`{name}`")

/-- The wording of a problem in a value that was not read from a text. -/
def Problem.message : Problem → String
  | .endInList => "EOF while parsing a list"
  | .endInObject => "EOF while parsing an object"
  | .endInString => "EOF while parsing a string"
  | .endInValue => "EOF while parsing a value"
  | .colonExpected => "expected `:`"
  | .listEndExpected => "expected `,` or `]`"
  | .objectEndExpected => "expected `,` or `\x7d`"
  | .identifierExpected => "expected ident"
  | .valueExpected => "expected value"
  | .invalidEscape => "invalid escape"
  | .invalidNumber => "invalid number"
  | .numberOutOfRange => "number out of range"
  | .controlCharacter => "control character (\\u0000-\\u001F) found while parsing a string"
  | .keyNotText => "key must be a string"
  | .loneSurrogate => "lone leading surrogate in hex escape"
  | .surrogateUnpaired => "unexpected end of hex escape"
  | .trailingComma => "trailing comma"
  | .trailingCharacters => "trailing characters"
  | .nestedTooDeep => "recursion limit exceeded"
  | .invalidType found expected => "invalid type: " ++ found.describe ++ ", expected " ++ expected
  | .missingField field => s!"missing field `{field}`"
  | .duplicateField field => s!"duplicate field `{field}`"
  | .unknownField field expected => s!"unknown field `{field}`, " ++ oneOf expected
  | .unknownVariant name expected => s!"unknown variant `{name}`, " ++ oneOf expected
  | .noVariant type => s!"data did not match any variant of untagged enum {type}"
  | .tooFewItems count expected => s!"invalid length {count}, expected {expected}"
  | .tooManyItems count => s!"invalid length {count}, expected fewer elements in array"
  | .pathNotText => "path contains invalid UTF-8 characters"

/-- The wording of a problem in a text, where the items after the last field of a list count as
    left over. -/
def Problem.messageInText : Problem → String
  | .tooManyItems _ => Problem.trailingCharacters.message
  | problem => problem.message

/-! ## Positions -/

/-- A place in a text: a line, counted from one, and how many bytes of it stand before. -/
structure Position where
  line : Nat
  column : Nat

/-- The position reached from `p` when `count` bytes follow it. A line break is passed when it
    stands among these bytes. -/
def Position.advance (p : Position) : List Char → Nat → Position
  | [], _ => p
  | c :: rest, count =>
    if count < c.utf8Size then { p with column := p.column + count }
    else if c = '\n' then Position.advance ⟨p.line + 1, 0⟩ rest (count - 1)
    else Position.advance { p with column := p.column + c.utf8Size } rest (count - c.utf8Size)

/-- The position after the first `offset` bytes of a text, or at its end if it is shorter. -/
def Position.ofOffset (text : List Char) (offset : Nat) : Position :=
  Position.advance ⟨1, 0⟩ text offset

/-- The message about a fault of a text. -/
def Fault.message (fault : Fault) (text : List Char) : String :=
  let position := Position.ofOffset text fault.offset
  let line := position.line
  let column := position.column
  fault.problem.messageInText ++ s!" at line {line} column {column}"

end FitScript.Json
