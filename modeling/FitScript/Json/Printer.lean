import FitScript.Json.Fault

/-!
# Writing values

A value as indented JSON text: two spaces for each level, one item or member on a line.

* `Value.pretty`: the text of a value.
* `writeText`: a string in double quotes.
-/

namespace FitScript.Json

/-! ## Strings -/

/-- What stands for one character in a string. Characters below the space are escaped, by a
    letter if they have one. -/
def escapeChar (c : Char) : List Char :=
  if c = '"' then ['\\', '"']
  else if c = '\\' then ['\\', '\\']
  else if c = '\x08' then ['\\', 'b']
  else if c = '\x0C' then ['\\', 'f']
  else if c = '\n' then ['\\', 'n']
  else if c = '\r' then ['\\', 'r']
  else if c = '\t' then ['\\', 't']
  else if c.toNat < 0x20 then
    ['\\', 'u', '0', '0', Nat.digitChar (c.toNat / 16), Nat.digitChar (c.toNat % 16)]
  else [c]

/-- A text in double quotes. -/
def writeText (s : String) : List Char :=
  '"' :: (s.toList.flatMap escapeChar ++ ['"'])

/-- A scalar. -/
def Scalar.write : Scalar → List Char
  | .null => ['n', 'u', 'l', 'l']
  | .bool true => ['t', 'r', 'u', 'e']
  | .bool false => ['f', 'a', 'l', 's', 'e']
  | .int n => (toString n).toList
  | .float x => (Decimal.writeDouble doubleLayout x).toList
  | .text s => writeText s

/-! ## Lists and objects -/

/-- A new line at a level. -/
def newLine (level : Nat) : List Char :=
  '\n' :: List.replicate (2 * level) ' '

/-- Parts on lines of their own between two brackets; nothing stands between the brackets if
    there are none. -/
def writeParts (opening closing : Char) (level : Nat) : List (List Char) → List Char
  | [] => [opening, closing]
  | part :: parts =>
    opening :: (newLine (level + 1) ++ part ++
      parts.flatMap (',' :: newLine (level + 1) ++ ·) ++ newLine level ++ [closing])

namespace Value

mutual

/-- A value whose first line stands at a level. -/
def write (level : Nat) : Value → List Char
  | scalar s => s.write
  | array items => writeParts '[' ']' level (writeItems (level + 1) items)
  | object members => writeParts '{' '}' level (writeMembers (level + 1) members)

/-- Each item of a list. -/
def writeItems (level : Nat) : List Value → List (List Char)
  | [] => []
  | item :: rest => item.write level :: writeItems level rest

/-- Each member of an object. -/
def writeMembers (level : Nat) : List (String × Value) → List (List Char)
  | [] => []
  | (name, value) :: rest =>
    (writeText name ++ ':' :: ' ' :: value.write level) :: writeMembers level rest

end

/-- The indented text of a value. -/
def pretty (value : Value) : String :=
  String.ofList (value.write 0)

end Value

end FitScript.Json
