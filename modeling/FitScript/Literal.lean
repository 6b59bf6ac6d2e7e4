/-!
# String literals

Texts as single-quoted R literals. Backslashes, quotes and line feeds are escaped, so that a
literal ends at its closing quote, whatever it holds.

* `Literal.write`: the literal of a text.
-/

namespace FitScript.Literal

/-- What stands for one character between the quotes. -/
def escapeChar (c : Char) : List Char :=
  if c = '\\' then ['\\', '\\']
  else if c = '\x27' then ['\\', '\x27']
  else if c = '\n' then ['\\', 'n']
  else [c]

/-- The literal of a text (`r_string`). -/
def write (s : String) : String :=
  String.ofList ('\x27' :: (s.toList.flatMap escapeChar ++ ['\x27']))

end FitScript.Literal
