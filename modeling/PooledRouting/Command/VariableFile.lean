import PooledRouting.Command.Variables
import PooledRouting.Text.Alphanumeric
import PooledRouting.Text.Blank

/-!
# Files of variables

A file of variables holds lines `NAME=value`, with an optional `export`
before the name, and comments behind a number sign.  A value may be
quoted, and then go on over several lines; outside single quotes a
backslash escapes and a dollar sign brings in another variable, as
`$NAME` or in braces.  Names after a plain dollar sign are made of
letters and digits of any script; those that a line sets are ASCII.

Reading stops at the first line that cannot be read.  A variable that is
already set keeps its value.

There are three groups: cutting the file into lines, reading a line, and
setting the variables.
-/

namespace PooledRouting.Command

namespace VariableFile

/-! ## Lines -/

/-- What a line is in the middle of. -/
inductive LineMode where
  | plain
  | blank
  | escape
  | strong
  | strongEscape
  | weak
  | weakEscape
  deriving DecidableEq, Repr

/-- The mode after one more character. -/
def LineMode.next (m : LineMode) (c : Char) : LineMode :=
  match m with
  | escape => plain
  | weakEscape => weak
  | strongEscape => strong
  | weak => if c = '\\' then weakEscape else if c = '"' then plain else weak
  | strong => if c = '\\' then strongEscape else if c = '\'' then plain else strong
  | plain | blank =>
    if m = plain ∧ Text.isBlank c ∧ c ≠ '\n' ∧ c ≠ '\r' then blank
    else if c = '\\' then escape
    else if c = '"' then weak
    else if c = '\'' then strong
    else plain

/-- How the scan of a piece of text ends. -/
inductive Scan where
  | within (m : LineMode)
  /-- A comment begins after so many characters. -/
  | comment (length : Nat)

/-- Go through a piece of text, `n` characters of which are past. -/
def scan (m : LineMode) (n : Nat) : List Char → Scan
  | [] => .within m
  | c :: cs => if m = .blank ∧ c = '#' then .comment n else scan (m.next c) (n + 1) cs

/-- Cut a text behind every line feed. -/
def splitLines : List Char → List (List Char)
  | [] => []
  | c :: cs =>
    if c = '\n' then [c] :: splitLines cs
    else
      match splitLines cs with
      | [] => [[c]]
      | l :: ls => (c :: l) :: ls

/-- A line without the line feed at its end and a carriage return before
that. -/
def chomp (cs : List Char) : List Char :=
  match cs.reverse with
  | '\n' :: '\r' :: rest => rest.reverse
  | '\n' :: rest => rest.reverse
  | _ => cs

/-- The lines with those joined that belong to one quoted value; `sofar`
is the part of a line that was read in mode `m`.  A last line that is not
complete is left out. -/
def joinLines (sofar : List Char) (m : LineMode) : List (List Char) → List (List Char)
  | [] => []
  | l :: ls =>
    let whole := sofar ++ l
    if (Text.trimStart whole).head? = some '#' then joinLines [] .plain ls
    else
      match scan m 0 l with
      | .within .plain => chomp whole :: joinLines [] .plain ls
      | .within m => joinLines whole m ls
      | .comment n => (sofar ++ l.take n) :: joinLines [] .plain ls

/-! ## One line -/

/-- Why a line cannot be read; nobody asks for more. -/
inductive Unreadable where
  | line
  deriving DecidableEq, Repr

/-- Read the name of a variable. -/
def readName (cs : List Char) : Except Unreadable (String × List Char) :=
  match cs with
  | [] => .error .line
  | c :: _ =>
    if c.isAlpha || c == '_' then
      let inName (c : Char) : Bool := c.isAlphanum || c == '_' || c == '.'
      .ok (String.ofList (cs.takeWhile inName), cs.dropWhile inName)
    else .error .line

/-- Pass over an equals sign and the blanks around it. -/
def readEquals (cs : List Char) : Except Unreadable (List Char) :=
  match Text.trimStart cs with
  | '=' :: cs => .ok (Text.trimStart cs)
  | _ => .error .line

/-- What a value is in the middle of. -/
inductive ValueMode where
  | text
  | strong
  | escape
  /-- A name after a dollar sign. -/
  | name (sofar : List Char)
  /-- A name in braces. -/
  | braced (sofar : List Char)
  /-- Only blanks and a comment may follow. -/
  | ended
  deriving DecidableEq, Repr

/-- A value that is being read. -/
structure ValueState where
  mode : ValueMode := .text
  /-- Whether double quotes are open. -/
  weak : Bool := false
  /-- The characters of the value, the latest first. -/
  output : List Char := []

namespace ValueState

/-- The value as a text. -/
def text (s : ValueState) : String := String.ofList s.output.reverse

/-- The value with one more character. -/
def push (s : ValueState) (c : Char) : ValueState :=
  { s with mode := .text, output := c :: s.output }

/-- The value with a variable brought in; one that is not set is empty. -/
def bring (s : ValueState) (vs : Variables) (name : List Char) : ValueState :=
  { s with
    mode := .text
    output := ((vs.get? (String.ofList name)).getD "").toList.reverse ++ s.output }

/-- The character that an escape stands for. -/
def escaped? (c : Char) : Option Char :=
  if c = 'n' then some '\n'
  else if c ∈ ['\\', '\'', '"', '$', ' '] then some c
  else none

/-- The value after one more character of plain or quoted text. -/
def stepText (s : ValueState) (c : Char) : ValueState :=
  if c = '$' then { s with mode := .name [] }
  else if s.weak then
    if c = '"' then { s with weak := false }
    else if c = '\\' then { s with mode := .escape }
    else s.push c
  else if c = '\'' then { s with mode := .strong }
  else if c = '"' then { s with weak := true }
  else if c = '\\' then { s with mode := .escape }
  else if c = ' ' ∨ c = '\t' then { s with mode := .ended }
  else s.push c

/-- The value after one more character.  The character that ends a name
is taken as it stands. -/
def step (vs : Variables) (s : ValueState) (c : Char) : Except Unreadable ValueState :=
  match s.mode with
  | .ended => if c = ' ' ∨ c = '\t' then .ok s else .error .line
  | .escape =>
    match escaped? c with
    | some c => .ok (s.push c)
    | none => .error .line
  | .strong =>
    .ok (if c = '\'' then { s with mode := .text } else { s.push c with mode := .strong })
  | .name sofar =>
    if Text.isAlphanumeric c then .ok { s with mode := .name (sofar ++ [c]) }
    else if c = '\x7b' ∧ sofar = [] then .ok { s with mode := .braced [] }
    else if c = '$' then .ok { s.bring vs sofar with mode := .name [] }
    else .ok ((s.bring vs sofar).push c)
  | .braced sofar =>
    if c = '\x7d' then .ok (s.bring vs sofar)
    else .ok { s with mode := .braced (sofar ++ [c]) }
  | .text => .ok (s.stepText c)

/-- The value at the end of the line.  Open quotes and braces are faults. -/
def finish (vs : Variables) (s : ValueState) : Except Unreadable String :=
  if s.weak then .error .line
  else
    match s.mode with
    | .strong | .braced _ => .error .line
    | .name sofar => .ok (s.bring vs sofar).text
    | _ => .ok s.text

end ValueState

/-- The value in the rest of a line, which ends at a comment. -/
def readValue (vs : Variables) (s : ValueState) : List Char → Except Unreadable String
  | [] => s.finish vs
  | c :: cs =>
    if s.mode = .ended ∧ c = '#' then s.finish vs
    else
      match s.step vs c with
      | .error fault => .error fault
      | .ok s => readValue vs s cs

/-- The name in a line and what follows its equals sign.  The word
`export` is passed over if another name follows it. -/
def readBinding (cs : List Char) : Except Unreadable (String × List Char) := do
  let (name, rest) ← readName cs
  match readEquals rest with
  | .ok rest => return (name, rest)
  | .error fault =>
    if name = "export" then
      let (name, rest) ← readName (Text.trimStart rest)
      return (name, ← readEquals rest)
    else .error fault

/-- The variable that a line sets.  Empty lines and comments set none. -/
def readLine (vs : Variables) (line : List Char) :
    Except Unreadable (Option (String × String)) := do
  let cs := Text.trimStart (Text.trimEnd line)
  if cs = [] ∨ cs.head? = some '#' then return none
  let (name, rest) ← readBinding cs
  if rest = [] ∨ rest.head? = some '#' then return some (name, "")
  return some (name, ← readValue vs {} rest)

/-! ## The file -/

/-- Set the variables of the lines in turn, up to the first line that
cannot be read. -/
def setLines (vs : Variables) : List (List Char) → Except Variables.Unsettable Variables
  | [] => .ok vs
  | l :: ls =>
    match readLine vs l with
    | .error _ => .ok vs
    | .ok none => setLines vs ls
    | .ok (some (name, value)) =>
      match vs.set name value with
      | .error fault => .error fault
      | .ok vs => setLines vs ls

/-- The text without a byte order mark. -/
def dropMark : List Char → List Char
  | [] => []
  | c :: cs => if c = '\uFEFF' then cs else c :: cs

/-- The variables together with those that the file sets. -/
def load (vs : Variables) (file : String) : Except Variables.Unsettable Variables :=
  setLines vs (joinLines [] .plain (splitLines (dropMark file.toList)))

/-- The names behind the dollar signs of a text, plain or in braces.  A
file brings in no variable but these. -/
def mentioned : List Char → List String
  | [] => []
  | c :: cs =>
    if c = '$' then
      String.ofList (cs.takeWhile Text.isAlphanumeric) ::
        String.ofList ((cs.drop 1).takeWhile (· != '\x7d')) :: mentioned cs
    else mentioned cs

end VariableFile

end PooledRouting.Command
