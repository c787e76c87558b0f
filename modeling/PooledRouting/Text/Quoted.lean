import PooledRouting.Text.Invisible

/-!
# Quoted text

A text is quoted between double quotes.  A backslash, a double quote and
the usual control characters have short escapes; every other invisible
character is written as its code point in hexadecimal.
-/

namespace PooledRouting.Text

/-- The escape of a character by its code point. -/
def codePointEscape (c : Char) : List Char :=
  ['\\', 'u', '\x7b'] ++ Nat.toDigits 16 c.toNat ++ ['\x7d']

/-- How a character is written between double quotes. -/
def quoteChar (c : Char) : List Char :=
  if c = '\x00' then ['\\', '0']
  else if c = '\t' then ['\\', 't']
  else if c = '\r' then ['\\', 'r']
  else if c = '\n' then ['\\', 'n']
  else if c = '"' ∨ c = '\\' then ['\\', c]
  else if isInvisible c then codePointEscape c
  else [c]

/-- The text between double quotes. -/
def quote (s : String) : String :=
  String.ofList ('"' :: (s.toList.flatMap quoteChar ++ ['"']))

end PooledRouting.Text
