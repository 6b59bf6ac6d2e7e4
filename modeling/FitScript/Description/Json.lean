import FitScript.Description
import FitScript.Failure
import FitScript.Json.Decoder
import FitScript.Json.Printer

/-!
# Descriptions as JSON

The JSON form of a model description. A variable is a text or an object with a name and levels;
`dv` and `ivs` are other names of the dependent and the independent variables.

* `Description.ofJson` and `Description.ofValue`: the description in a text and in a value.
* `Description.toJson`: the text of a description, without the parts that are not given.
-/

namespace FitScript

open Json

/-! ## Reading -/

namespace VariableEntry

/-- The texts among values, if all of them are texts. -/
def textsOf? : List Value → Option (List String)
  | [] => some []
  | .scalar (.text s) :: rest => (textsOf? rest).map (s :: ·)
  | _ :: _ => none

/-- The levels in the members of an object, which may be absent or `null`. -/
def levelsOf? (members : List (String × Value)) : Option (Option (List String)) :=
  match members.filter (·.1 == "levels") with
  | [] => some none
  | [(_, .scalar .null)] => some none
  | [(_, .array items)] => (textsOf? items).map some
  | _ => none

/-- The variable that a value stands for. An object must have one name and at most one list of
    levels; its other members do not count. -/
def ofValue? : Value → Option VariableEntry
  | .scalar (.text name) => some (.bare name)
  | .object members =>
    match members.filter (·.1 == "name") with
    | [(_, .scalar (.text name))] => (levelsOf? members).map (.detailed name)
    | _ => none
  | _ => none

/-- Reads a variable. -/
def decoder : Decoder VariableEntry :=
  .variant "VariableSpec" ofValue?

end VariableEntry

/-- The fields of a random effect. -/
def RandomEntry.record : Record RandomEntry where
  name := "RandomEffectSpec"
  fields :=
    [(Field.of "group" .text fun group r => { r with group }).mandatory,
     Field.of "slopes" (.list .text) fun slopes r => { r with slopes }]
  initial := ⟨"", []⟩

namespace Description

/-- The fields of a description. -/
def record : Record Description where
  name := "ModelDescription"
  fields :=
    [(Field.of "schema" .text fun schema d => { d with schema }).mandatory,
     Field.of "id" (.optional .text) fun id d => { d with id },
     (Field.of "dependent" (.optional VariableEntry.decoder)
       fun dependent d => { d with dependent }).orNamed "dv",
     (Field.of "independent" (.list VariableEntry.decoder)
       fun independent d => { d with independent }).orNamed "ivs",
     Field.of "interactions" (.list (.list .text)) fun interactions d => { d with interactions },
     Field.of "random" (.list RandomEntry.record.decoder) fun random d => { d with random },
     Field.of "family" (.optional .text) fun family d => { d with family },
     Field.of "link" (.optional .text) fun link d => { d with link },
     Field.of "data" (.optional (.named "path string"))
       fun data d => { d with data := data.map FilePath.ofString }]
  initial := empty

/-- The description, if its version is supported (`check_schema_version`). -/
def checkSchema (d : Description) : Except Failure Description :=
  if d.schema ∈ supportedSchemas then .ok d
  else .error (.unsupportedSchema d.schema supportedSchemas)

/-- The description in a text (`ModelDescription.from_str`). -/
def ofJson (text : String) : Except Failure Description :=
  ((decodeText record.decoder text).mapError .document).bind checkSchema

/-- The description in a value (`ModelDescription.from_value`). -/
def ofValue (value : Value) : Except Failure Description :=
  ((decodeValue record.decoder value).mapError .document).bind checkSchema

end Description

/-! ## Writing -/

/-- A variable as a value. -/
def VariableEntry.value : VariableEntry → Value
  | bare name => .text name
  | detailed name none => .object [("name", .text name)]
  | detailed name (some levels) => .object [("name", .text name), ("levels", .texts levels)]

/-- A random effect as a value. -/
def RandomEntry.value (entry : RandomEntry) : Value :=
  .object (("group", .text entry.group) ::
    if entry.slopes.isEmpty then [] else [("slopes", .texts entry.slopes)])

namespace Description

/-- A member for a part that is given. -/
def memberIfSome (name : String) (part : Option Value) : List (String × Value) :=
  (part.map (name, ·)).toList

/-- A member for a list with items. -/
def memberIfAny (name : String) (items : List Value) : List (String × Value) :=
  if items.isEmpty then [] else [(name, .array items)]

/-- The members of a description, given the text of its data path. -/
def membersWith (d : Description) (data : Option String) : List (String × Value) :=
  [("schema", .text d.schema)] ++
    memberIfSome "id" (d.id.map .text) ++
    memberIfSome "dependent" (d.dependent.map VariableEntry.value) ++
    [("independent", .array (d.independent.map VariableEntry.value))] ++
    memberIfAny "interactions" (d.interactions.map Value.texts) ++
    memberIfAny "random" (d.random.map RandomEntry.value) ++
    memberIfSome "family" (d.family.map .text) ++
    memberIfSome "link" (d.link.map .text) ++
    memberIfSome "data" (data.map .text)

/-- The text of a description (`ModelDescription.to_json`). A data path that is no text cannot be
    written. -/
def toJson (d : Description) : Except Failure String :=
  match d.data with
  | none => .ok (Value.object (d.membersWith none)).pretty
  | some path =>
    match path.text? with
    | some data => .ok (Value.object (d.membersWith (some data))).pretty
    | none => .error (.document Problem.pathNotText.message)

end Description

end FitScript
