/-!
# Values

The values that a JSON document denotes.

* `Scalar`: a value without parts. A number is whole or a double, and the two differ even when
  they are equal as numbers.
* `Value`: a scalar, a list of values, or a list of named members in their written order.
* `Value.sorted`: the value with the members of each object in the order of their names, and of
  several members of one name only the last.
-/

namespace FitScript.Json

/-- A value without parts. -/
inductive Scalar where
  | null
  | bool (b : Bool)
  | int (n : Int)
  | float (x : Float)
  | text (s : String)

/-- A value. -/
inductive Value where
  | scalar (s : Scalar)
  | array (items : List Value)
  | object (members : List (String × Value))

/-- A text as a value. -/
def Value.text (s : String) : Value :=
  .scalar (.text s)

/-- Texts as a value. -/
def Value.texts (items : List String) : Value :=
  .array (items.map Value.text)

/-! ## Order of members -/

/-- Members in the order of their names with one more member; it takes the place of one with
    its name. -/
def insertMember (name : String) (value : Value) :
    List (String × Value) → List (String × Value)
  | [] => [(name, value)]
  | (other, kept) :: rest =>
    if name < other then (name, value) :: (other, kept) :: rest
    else if name = other then (name, value) :: rest
    else (other, kept) :: insertMember name value rest

namespace Value

mutual

/-- The value with the members of each object in the order of their names. -/
def sorted : Value → Value
  | scalar s => .scalar s
  | array items => .array (sortedItems items)
  | object members => .object (sortedMembers [] members)

/-- Sorted items. -/
def sortedItems : List Value → List Value
  | [] => []
  | item :: rest => item.sorted :: sortedItems rest

/-- Sorted members put among others. -/
def sortedMembers (others : List (String × Value)) :
    List (String × Value) → List (String × Value)
  | [] => others
  | (name, value) :: rest => sortedMembers (insertMember name value.sorted others) rest

end

end Value

end FitScript.Json
