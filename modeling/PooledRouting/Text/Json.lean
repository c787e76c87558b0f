/-!
# Writing JSON

A JSON value is laid out over lines, with two blanks of indentation for
each level and one line for each field or element.  `JsonLines` are the
lines of one value; the combinators put a value together from those of
its parts.
-/

namespace PooledRouting.Text

/-- The lines of a JSON value.  There is at least one. -/
abbrev JsonLines := List String

namespace JsonLines

/-- A hexadecimal code of four digits. -/
def unicodeEscape (c : Char) : List Char :=
  let ds := Nat.toDigits 16 c.toNat
  ['\\', 'u'] ++ List.replicate (4 - ds.length) '0' ++ ds

/-- How a character is written in a JSON string. -/
def escapeChar (c : Char) : List Char :=
  if c = '"' ∨ c = '\\' then ['\\', c]
  else if c = '\x08' then ['\\', 'b']
  else if c = '\x0c' then ['\\', 'f']
  else if c = '\n' then ['\\', 'n']
  else if c = '\r' then ['\\', 'r']
  else if c = '\t' then ['\\', 't']
  else if c.toNat < 0x20 then unicodeEscape c
  else [c]

/-- A string in quotes. -/
def quoted (s : String) : String :=
  String.ofList ('"' :: (s.toList.flatMap escapeChar ++ ['"']))

/-- A string. -/
def text (s : String) : JsonLines := [quoted s]

/-- A natural number. -/
def figure (n : Nat) : JsonLines := [toString n]

/-- Put a comma behind the last line. -/
def withComma : JsonLines → JsonLines
  | [] => []
  | [l] => [l ++ ","]
  | l :: ls => l :: withComma ls

/-- The items of a list or record, separated by commas and indented. -/
def items : List JsonLines → JsonLines
  | [] => []
  | [x] => x.map ("  " ++ ·)
  | x :: xs => (withComma x).map ("  " ++ ·) ++ items xs

/-- Put the name of a field before its value. -/
def named (name : String) : JsonLines → JsonLines
  | [] => []
  | l :: ls => (quoted name ++ ": " ++ l) :: ls

/-- Items between brackets, which stand on one line if there are none. -/
def bracketed (left right : String) (xs : List JsonLines) : JsonLines :=
  if xs.isEmpty then [left ++ right] else left :: (items xs ++ [right])

/-- A list. -/
def list (xs : List JsonLines) : JsonLines :=
  bracketed "[" "]" xs

/-- A record with its fields in order. -/
def record (fields : List (String × JsonLines)) : JsonLines :=
  bracketed "\x7b" "\x7d" (fields.map fun f => named f.1 f.2)

/-- The lines as one text. -/
def render (x : JsonLines) : String :=
  "\n".intercalate x

end JsonLines

end PooledRouting.Text
