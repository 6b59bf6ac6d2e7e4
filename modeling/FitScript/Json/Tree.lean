import FitScript.Json.Lexeme

/-!
# Trees

A JSON text as far as it can be read: a tree of values with their places, in which a part that
cannot be read is a leaf of its own. What is asked of a document is asked of its tree, from left
to right, so that the first thing wrong with it is reported, whether it is no JSON or not the
JSON that is asked for.

* `Tree`: a value with its places. `Tree.value?`: the value, if all of it could be read.
* `Document.read`: the tree of a text, and what is left over after it.
* `Value.tree`: a value as a tree without places.
-/

namespace FitScript.Json

/-! ## Trees -/

/-- Where a value stands. Something wrong with the value as a part of its list or object is
    reported after what follows it there. -/
structure Span where
  /-- How many bytes stand before the value. -/
  start : Nat
  /-- How many bytes stand before its end. -/
  stop : Nat
  /-- Where a problem of the value as a part is reported. -/
  report : Nat

/-- The key of a member, and where a problem of the key is reported. -/
structure Key where
  name : String
  report : Nat

/-- A value with its places. A list or object whose end cannot be read has a fault, which comes
    after its parts. -/
inductive Tree where
  | leaf (span : Span) (value : Scalar)
  | array (span : Span) (items : List Tree) (fault : Option Fault)
  | object (span : Span) (members : List (Key × Tree)) (fault : Option Fault)
  | broken (fault : Fault)

namespace Tree

/-- Where a problem of a tree as a part is reported. -/
def report : Tree → Nat
  | leaf span _ => span.report
  | array span _ _ => span.report
  | object span _ _ => span.report
  | broken fault => fault.offset

mutual

/-- The first fault of a tree, if not all of it could be read. -/
def fault? : Tree → Option Fault
  | leaf _ _ => none
  | array _ items fault => (itemsFault? items).or fault
  | object _ members fault => (membersFault? members).or fault
  | broken fault => some fault

/-- The first fault among items. -/
def itemsFault? : List Tree → Option Fault
  | [] => none
  | item :: rest => item.fault?.or (itemsFault? rest)

/-- The first fault among members. -/
def membersFault? : List (Key × Tree) → Option Fault
  | [] => none
  | (_, tree) :: rest => tree.fault?.or (membersFault? rest)

end

mutual

/-- The value of a tree, if all of it could be read. -/
def value? : Tree → Option Value
  | leaf _ s => some (.scalar s)
  | array _ items none => (itemValues? items).map .array
  | object _ members none => (memberValues? members).map .object
  | _ => none

/-- The values of items. -/
def itemValues? : List Tree → Option (List Value)
  | [] => some []
  | item :: rest => do
    let value ← item.value?
    let values ← itemValues? rest
    pure (value :: values)

/-- The named values of members. -/
def memberValues? : List (Key × Tree) → Option (List (String × Value))
  | [] => some []
  | (key, tree) :: rest => do
    let value ← tree.value?
    let values ← memberValues? rest
    pure ((key.name, value) :: values)

end

end Tree

/-! ## Values as trees -/

namespace Value

/-- The span of a value that has no place. -/
def nowhere : Span :=
  ⟨0, 0, 0⟩

mutual

/-- A value as a tree without places. -/
def tree : Value → Tree
  | scalar s => .leaf nowhere s
  | array items => .array nowhere (itemTrees items) none
  | object members => .object nowhere (memberTrees members) none

/-- Items as trees. -/
def itemTrees : List Value → List Tree
  | [] => []
  | item :: rest => item.tree :: itemTrees rest

/-- Members as trees. -/
def memberTrees : List (String × Value) → List (Key × Tree)
  | [] => []
  | (name, value) :: rest => (⟨name, 0⟩, value.tree) :: memberTrees rest

end

end Value

/-! ## Reading lexemes -/

/-- What a value is a part of. -/
inductive Place where
  | document
  | list
  | object

/-- Where the lexemes at hand start; `size` is the length of the text. -/
def startOf (size : Nat) : List Lexeme → Nat
  | [] => size
  | lexeme :: _ => lexeme.start

/-- Where a problem of a part that ends at `stop` is reported: after the closing bracket that
    follows it, before the item that follows it and its comma, or before anything else that
    follows it. -/
def Place.report (place : Place) (size stop : Nat) (rest : List Lexeme) : Nat :=
  match place, rest with
  | .document, _ => stop
  | .list, ⟨.rightBracket, _, stop⟩ :: _ => stop
  | .list, ⟨.comma, _, _⟩ :: rest => startOf size rest
  | .object, ⟨.rightBrace, _, stop⟩ :: _ => stop
  | _, rest => startOf size rest

/-- Parts that have been read, the fault that ended them, their end and the lexemes after it. -/
structure Parts (α : Type) where
  parts : List α
  fault : Option Fault
  stop : Nat
  rest : List Lexeme

/-- Parts that end in a fault. -/
def Parts.broken (problem : Problem) (offset : Nat) : Parts α :=
  ⟨[], some ⟨problem, offset⟩, offset, []⟩

/-- Parts with one more in front of them. -/
def Parts.cons (part : α) (parts : Parts α) : Parts α :=
  { parts with parts := part :: parts.parts }

/-- Reads items and the bracket after them, at most `limit` items; `read` reads one. -/
def readItems (read : List Lexeme → Tree × List Lexeme) (size : Nat) :
    (limit : Nat) → List Lexeme → Parts Tree
  | 0, _ => .broken .endInList size
  | limit + 1, lexemes =>
    let (item, rest) := read lexemes
    .cons item <|
      match rest with
      | [] => .broken .endInList size
      | ⟨.rightBracket, _, stop⟩ :: rest => ⟨[], none, stop, rest⟩
      | ⟨.comma, _, _⟩ :: [] => .broken .endInValue size
      | ⟨.comma, _, _⟩ :: ⟨.rightBracket, start, _⟩ :: _ => .broken .trailingComma (start + 1)
      | ⟨.comma, _, _⟩ :: rest => readItems read size limit rest
      | ⟨_, start, _⟩ :: _ => .broken .listEndExpected (start + 1)

/-- Reads the colon and the value of a member. -/
def readMemberValue (read : List Lexeme → Tree × List Lexeme) (size : Nat) :
    List Lexeme → Tree × List Lexeme
  | [] => (.broken ⟨.endInObject, size⟩, [])
  | ⟨.colon, _, _⟩ :: rest => read rest
  | ⟨_, start, _⟩ :: _ => (.broken ⟨.colonExpected, start + 1⟩, [])

/-- Reads members and the brace after them, at most `limit` members; `read` reads a value. -/
def readMembers (read : List Lexeme → Tree × List Lexeme) (size : Nat) :
    (limit : Nat) → List Lexeme → Parts (Key × Tree)
  | 0, _ => .broken .endInObject size
  | limit + 1, lexemes =>
    match lexemes with
    | ⟨.scalar (.text name), _, stop⟩ :: rest =>
      let key : Key := ⟨name, Place.object.report size stop rest⟩
      let (value, rest) := readMemberValue read size rest
      .cons (key, value) <|
        match rest with
        | [] => .broken .endInObject size
        | ⟨.rightBrace, _, stop⟩ :: rest => ⟨[], none, stop, rest⟩
        | ⟨.comma, _, _⟩ :: [] => .broken .endInValue size
        | ⟨.comma, _, _⟩ :: ⟨.rightBrace, start, _⟩ :: _ => .broken .trailingComma (start + 1)
        | ⟨.comma, _, _⟩ :: rest => readMembers read size limit rest
        | ⟨_, start, _⟩ :: _ => .broken .objectEndExpected (start + 1)
    | [] => .broken .endInObject size
    | ⟨.brokenText fault, _, _⟩ :: _ => .broken fault.problem fault.offset
    | ⟨_, start, _⟩ :: _ => .broken .keyNotText (start + 1)

/-- Reads one value, with lists and objects nested at most `depth` deep. -/
def readTree (size : Nat) : (depth : Nat) → Place → List Lexeme → Tree × List Lexeme
  | _, _, [] => (.broken ⟨.endInValue, size⟩, [])
  | _, place, ⟨.scalar s, start, stop⟩ :: rest =>
    (.leaf ⟨start, stop, place.report size stop rest⟩ s, rest)
  | depth, place, ⟨.leftBracket, start, _⟩ :: rest =>
    match depth with
    | 0 => (.array ⟨start, start, start⟩ [] (some ⟨.nestedTooDeep, start + 1⟩), [])
    | depth + 1 =>
      let read : Parts Tree :=
        match rest with
        | [] => .broken .endInList size
        | ⟨.rightBracket, _, stop⟩ :: rest => ⟨[], none, stop, rest⟩
        | rest => readItems (readTree size depth .list) size rest.length rest
      (.array ⟨start, read.stop, place.report size read.stop read.rest⟩ read.parts read.fault,
        read.rest)
  | depth, place, ⟨.leftBrace, start, _⟩ :: rest =>
    match depth with
    | 0 => (.object ⟨start, start, start⟩ [] (some ⟨.nestedTooDeep, start + 1⟩), [])
    | depth + 1 =>
      let read : Parts (Key × Tree) :=
        match rest with
        | [] => .broken .endInObject size
        | ⟨.rightBrace, _, stop⟩ :: rest => ⟨[], none, stop, rest⟩
        | rest => readMembers (readTree size depth .object) size rest.length rest
      (.object ⟨start, read.stop, place.report size read.stop read.rest⟩ read.parts read.fault,
        read.rest)
  | _, _, ⟨.brokenText fault, _, _⟩ :: _ => (.broken fault, [])
  | _, _, ⟨.broken fault, _, _⟩ :: _ => (.broken fault, [])
  | _, _, ⟨_, start, _⟩ :: _ => (.broken ⟨.valueExpected, start + 1⟩, [])

/-! ## Documents -/

/-- A text as one value. -/
structure Document where
  tree : Tree
  /-- What is wrong after the value. -/
  fault : Option Fault

/-- How deep lists and objects may be nested. -/
def greatestDepth : Nat := 127

/-- Reads a text. -/
def Document.read (text : List Char) : Document :=
  let (tree, rest) := readTree (byteLength text) greatestDepth .document (lex text)
  match rest with
  | [] => ⟨tree, none⟩
  | lexeme :: _ => ⟨tree, some ⟨.trailingCharacters, lexeme.start + 1⟩⟩

end FitScript.Json
