import FitScript.Json.Decoder
import FitScript.Failure
import FitScript.Model.Basic

/-!
# Roles as JSON

The JSON form of a role: its name, or an object with its name as the only key and `null` as the
value.

* `Role.ofJson`: the role in a text.
-/

namespace FitScript.Role

open Json

/-- The names of the roles. -/
def names : List String :=
  [dependent.name, independent.name]

/-- The role of a name that was read up to an offset. -/
def ofName (name : String) (offset : Nat) : Except Fault Role :=
  if name = dependent.name then .ok dependent
  else if name = independent.name then .ok independent
  else .error ⟨.unknownVariant name names, offset⟩

/-- The fault of an object that does not start with a key. -/
def keyFault (size : Nat) : List Lexeme → Fault
  | [] => ⟨.endInObject, size⟩
  | ⟨.rightBrace, start, _⟩ :: _ => ⟨.valueExpected, start + 1⟩
  | ⟨.brokenText fault, _, _⟩ :: _ => fault
  | ⟨_, start, _⟩ :: _ => ⟨.keyNotText, start + 1⟩

/-- Reads what follows the name of a role in an object. -/
def readNull (role : Role) (size : Nat) : List Lexeme → Except Fault (Role × List Lexeme)
  | [] => .error ⟨.endInObject, size⟩
  | ⟨.colon, _, _⟩ :: rest =>
    match readTree size greatestDepth .object rest with
    | (.leaf _ .null, ⟨.rightBrace, _, _⟩ :: rest) => .ok (role, rest)
    | (.leaf _ .null, []) => .error ⟨.endInObject, size⟩
    | (.leaf _ .null, ⟨_, start, _⟩ :: _) => .error ⟨.valueExpected, start⟩
    | (tree, _) => .error (mismatch "unit" tree)
  | ⟨_, start, _⟩ :: _ => .error ⟨.colonExpected, start + 1⟩

/-- Reads a role. -/
def read (size : Nat) : List Lexeme → Except Fault (Role × List Lexeme)
  | [] => .error ⟨.endInValue, size⟩
  | ⟨.scalar (.text name), _, stop⟩ :: rest => (ofName name stop).map (·, rest)
  | ⟨.leftBrace, _, _⟩ :: ⟨.scalar (.text name), _, stop⟩ :: rest => do
    let role ← ofName name stop
    readNull role size rest
  | ⟨.leftBrace, _, _⟩ :: rest => .error (keyFault size rest)
  | ⟨.brokenText fault, _, _⟩ :: _ => .error fault
  | ⟨_, start, _⟩ :: _ => .error ⟨.valueExpected, start + 1⟩

/-- The role in a text, or the message of the first fault. -/
def ofJson (text : String) : Except String Role :=
  let cs := text.toList
  let result : Except Fault Role :=
    match read (byteLength cs) (lex cs) with
    | .ok (role, []) => .ok role
    | .ok (_, lexeme :: _) => .error ⟨.trailingCharacters, lexeme.start + 1⟩
    | .error fault => .error fault
  result.mapError (Fault.message · cs)

end FitScript.Role
