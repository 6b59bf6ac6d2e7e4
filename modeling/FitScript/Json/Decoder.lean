import FitScript.Json.Tree

/-!
# Decoders

Reading the tree of a document as a value of a type.

* `Decoder`: reads a tree, or reports the first fault.
* `Record`: a type with named fields. It is read from an object, in any order of the fields, or
  from a list of the fields in their order; fields that are not required keep their default.
* `decodeText` and `decodeValue`: reading a text, and a value that was read before. The members
  of such a value come in the order of their names.
-/

namespace FitScript.Json

/-- Reads a tree as a value of a type. -/
abbrev Decoder (α : Type) := Tree → Except Fault α

/-- The fault of a tree that is not of the expected type. A scalar is read before its type is
    found wrong, a list or object is not. -/
def mismatch (expected : String) : Tree → Fault
  | .leaf span s => ⟨.invalidType (.scalar s) expected, span.stop⟩
  | .array span _ _ => ⟨.invalidType .sequence expected, span.start⟩
  | .object span _ _ => ⟨.invalidType .map expected, span.start⟩
  | .broken fault => fault

/-- Succeeds unless there is a fault. -/
def unlessFault : Option Fault → Except Fault Unit
  | none => .ok ()
  | some fault => .error fault

namespace Decoder

/-- A text, which messages call `expected`. -/
def named (expected : String) : Decoder String
  | .leaf _ (.text s) => .ok s
  | tree => .error (mismatch expected tree)

/-- A text. -/
def text : Decoder String :=
  named "a string"

/-- A value or `null`. -/
def optional (decode : Decoder α) : Decoder (Option α)
  | .leaf _ .null => .ok none
  | tree => (decode tree).map some

/-- A list. -/
def list (decode : Decoder α) : Decoder (List α)
  | .array _ items fault => do
    let values ← items.mapM decode
    unlessFault fault
    pure values
  | tree => .error (mismatch "a sequence" tree)

/-- An object with any keys. -/
def members (decode : Decoder α) : Decoder (List (String × α))
  | .object _ members fault => do
    let values ← members.mapM fun (key, tree) => (decode tree).map (key.name, ·)
    unlessFault fault
    pure values
  | tree => .error (mismatch "a map" tree)

/-- A value that has one of several forms. Which one it has is asked after all of it was read. -/
def variant (type : String) (form? : Value → Option α) : Decoder α
  | tree => do
    unlessFault tree.fault?
    match tree.value?.bind form? with
    | some a => pure a
    | none => .error ⟨.noVariant type, tree.report⟩

end Decoder

/-! ## Records -/

/-- A field of a type. -/
structure Field (σ : Type) where
  name : String
  /-- Other names under which the field may be given. -/
  aliases : List String
  required : Bool
  /-- Reads the field into a value of the type. -/
  read : Tree → σ → Except Fault σ

/-- A field that is read by a decoder and stored by a setter. -/
def Field.of (name : String) (decode : Decoder α) (set : α → σ → σ) : Field σ :=
  ⟨name, [], false, fun tree state => (decode tree).map (set · state)⟩

/-- The field as one that must be given. -/
def Field.mandatory (field : Field σ) : Field σ :=
  { field with required := true }

/-- The field with one more name. -/
def Field.orNamed (field : Field σ) (other : String) : Field σ :=
  { field with aliases := field.aliases ++ [other] }

/-- The names of a field. -/
def Field.names (field : Field σ) : List String :=
  field.name :: field.aliases

/-- A type with named fields. -/
structure Record (σ : Type) where
  /-- What messages call the type. -/
  name : String
  fields : List (Field σ)
  /-- A value in which each field has its default. -/
  initial : σ

namespace Record

/-- The field with a name. -/
def field? (record : Record σ) (name : String) : Option (Field σ) :=
  record.fields.find? (name ∈ ·.names)

/-- Reads one member into a value whose fields `seen` have been read. -/
def readMember (record : Record σ) (seen : List String) (state : σ) (key : Key) (tree : Tree) :
    Except Fault (List String × σ) :=
  match record.field? key.name with
  | none => .error ⟨.unknownField key.name (record.fields.flatMap Field.names), key.report⟩
  | some field =>
    if field.name ∈ seen then .error ⟨.duplicateField field.name, key.report⟩
    else (field.read tree state).map (field.name :: seen, ·)

/-- Reads members into a value whose fields `seen` have been read. -/
def readMembers (record : Record σ) (seen : List String) (state : σ) :
    List (Key × Tree) → Except Fault (List String × σ)
  | [] => .ok (seen, state)
  | (key, tree) :: rest => do
    let (seen, state) ← record.readMember seen state key tree
    record.readMembers seen state rest

/-- Reads an object. The first required field that is missing is reported at its end. -/
def readObject (record : Record σ) (span : Span) (members : List (Key × Tree))
    (fault : Option Fault) : Except Fault σ := do
  let (seen, state) ← record.readMembers [] record.initial members
  unlessFault fault
  match record.fields.find? fun field => field.required && !seen.contains field.name with
  | some field => .error ⟨.missingField field.name, span.stop⟩
  | none => .ok state

/-- What a list of the fields should be. -/
def expectedLength (record : Record σ) : String :=
  let name := record.name
  let count := record.fields.length
  s!"struct {name} with {count} elements"

/-- The fault of a list that ends after its last field in something other than a bracket. -/
def faultAfterFields (fault : Fault) : Fault :=
  match fault.problem with
  | .endInList | .trailingComma => fault
  | _ => ⟨.trailingCharacters, fault.offset⟩

/-- Reads items as fields in their order. `count` items were read before, the last of which
    reports at `last`; `total` is their number in all. -/
def readItems (record : Record σ) (span : Span) (fault : Option Fault) (total : Nat) :
    (fields : List (Field σ)) → (count last : Nat) → σ → List Tree → Except Fault σ
  | [], _, _, state, [] => do
    unlessFault (fault.map faultAfterFields)
    pure state
  | [], _, last, _, _ :: _ => .error ⟨.tooManyItems total, last + 1⟩
  | field :: fields, count, last, state, [] => do
    unlessFault fault
    if field.required then .error ⟨.tooFewItems count record.expectedLength, span.stop⟩
    else record.readItems span none total fields (count + 1) last state []
  | field :: fields, count, _, state, item :: rest => do
    let state ← field.read item state
    record.readItems span fault total fields (count + 1) item.report state rest

/-- Reads an object or a list of the fields. -/
def decoder (record : Record σ) : Decoder σ
  | .array span items fault =>
    record.readItems span fault items.length record.fields 0 0 record.initial items
  | .object span members fault => record.readObject span members fault
  | tree => .error (mismatch ("struct " ++ record.name) tree)

end Record

/-! ## Texts and values -/

/-- Reads a text; the message of the first fault has its position. -/
def decodeText (decode : Decoder α) (text : String) : Except String α :=
  let document := Document.read text.toList
  let result := do
    let value ← decode document.tree
    unlessFault document.fault
    pure value
  result.mapError (·.message text.toList)

/-- Reads a value; the message of the first fault has no position. -/
def decodeValue (decode : Decoder α) (value : Value) : Except String α :=
  (decode value.sorted.tree).mapError (·.problem.message)

end FitScript.Json
