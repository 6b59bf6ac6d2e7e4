/-!
# Syntactic names

The names that stand unquoted in R code.

* `Name.isSyntactic`: a name of ASCII letters, digits, dots and underscores, starting with a
  letter or with a dot that no digit follows, and not reserved.
-/

namespace FitScript.Name

/-- Words of the language, which are no names (`RESERVED_WORDS`). -/
def reserved : List String :=
  ["if", "else", "repeat", "while", "function", "for", "in", "next", "break", "TRUE", "FALSE",
   "NULL", "Inf", "NaN", "NA", "NA_integer_", "NA_real_", "NA_character_", "NA_complex_", "..."]

/-- Whether a character may stand in a name. -/
def isNameChar (c : Char) : Bool :=
  c.isAlphanum || c == '.' || c == '_'

/-- Whether a name may start as these characters do. -/
def startsName : List Char → Bool
  | [] => false
  | '.' :: c :: _ => !c.isDigit
  | c :: _ => c.isAlpha || c == '.'

/-- Whether a text can stand unquoted in a formula (`is_syntactic_name`). -/
def isSyntactic (name : String) : Bool :=
  startsName name.toList && name.toList.all isNameChar && !reserved.contains name

end FitScript.Name
