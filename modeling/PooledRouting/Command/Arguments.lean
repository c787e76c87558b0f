import PooledRouting.Decimal.Reading
import PooledRouting.Settings.Basic

/-!
# Command-line arguments

The command line is a list of words.  An option that takes a value is
given once, in one of the forms `--name value`, `--name=value`,
`-n value`, `-nvalue` and `-n=value`; a word that begins with a hyphen is
never a value by itself.  The words are read from left to right, and the
first that asks for help, asks for the version, or is in error decides.
-/

namespace PooledRouting.Command

/-- What the command line asks for. -/
structure Arguments where
  strategy : Option Strategy := none
  endpoints : Nat := 3
  requests : Nat := 500
  /-- The requests that may be in flight at once. -/
  concurrency : Nat := 32
  clients : Nat := 64
  dialLatency : Nat := 5
  work : Nat := 2
  dialFailureRate : Binary64 := Binary64.zero
  poolSize : Option UInt64 := none
  maxActiveConns : Option UInt64 := none
  logLevel : Option String := none
  logFormat : Option LogFormat := none
  deriving DecidableEq, Repr

/-- An option that takes a value. -/
inductive Switch where
  | strategy
  | endpoints
  | requests
  | concurrency
  | clients
  | dialLatency
  | work
  | dialFailureRate
  | poolSize
  | maxActiveConns
  | logLevel
  | logFormat
  deriving DecidableEq, Repr

namespace Switch

/-- The options in the order of the help text. -/
def all : List Switch :=
  [strategy, endpoints, requests, concurrency, clients, dialLatency, work,
    dialFailureRate, poolSize, maxActiveConns, logLevel, logFormat]

/-- The name after two hyphens. -/
def name : Switch → String
  | strategy => "strategy"
  | endpoints => "endpoints"
  | requests => "requests"
  | concurrency => "concurrency"
  | clients => "clients"
  | dialLatency => "dial-latency-ms"
  | work => "work-ms"
  | dialFailureRate => "dial-failure-rate"
  | poolSize => "pool-size"
  | maxActiveConns => "max-active-conns"
  | logLevel => "log-level"
  | logFormat => "log-format"

/-- The letter after one hyphen, if there is one. -/
def letter? : Switch → Option Char
  | strategy => some 's'
  | endpoints => some 'e'
  | requests => some 'r'
  | concurrency => some 'c'
  | _ => none

/-- The option with this name. -/
def ofName? (name : String) : Option Switch :=
  all.find? fun s => s.name == name

/-- The option with this letter. -/
def ofLetter? (c : Char) : Option Switch :=
  all.find? fun s => s.letter? == some c

theorem mem_all (s : Switch) : s ∈ all := by
  cases s <;> decide

end Switch

/-- The figure that the text spells. -/
def figure? (text : String) : Option Nat :=
  (Text.readFigure text.toList).toOption

/-- The arguments with one more value, unless it cannot be read. -/
def Arguments.set (a : Arguments) (s : Switch) (text : String) : Option Arguments :=
  match s with
  | .strategy => (Strategy.parse text).toOption.map fun v => { a with strategy := v }
  | .endpoints => (figure? text).map fun n => { a with endpoints := n }
  | .requests => (figure? text).map fun n => { a with requests := n }
  | .concurrency => (figure? text).map fun n => { a with concurrency := n }
  | .clients => (figure? text).map fun n => { a with clients := n }
  | .dialLatency => (figure? text).map fun n => { a with dialLatency := n }
  | .work => (figure? text).map fun n => { a with work := n }
  | .dialFailureRate => (Decimal.read? text).map fun x => { a with dialFailureRate := x }
  | .poolSize => (figure? text).map fun n => { a with poolSize := UInt64.ofNat n }
  | .maxActiveConns =>
    (figure? text).map fun n => { a with maxActiveConns := UInt64.ofNat n }
  | .logLevel => some { a with logLevel := text }
  | .logFormat => (LogFormat.ofWord? text).map fun f => { a with logFormat := f }

/-- Why the words give no arguments. -/
inductive Stop where
  | help
  | version
  | misuse
  deriving DecidableEq, Repr

/-- The arguments so far. -/
structure Progress where
  arguments : Arguments := {}
  given : List Switch := []

namespace Progress

/-- Take in a value. -/
def give (p : Progress) (s : Switch) (text : String) : Except Stop Progress :=
  if s ∈ p.given then .error .misuse
  else
    match p.arguments.set s text with
    | none => .error .misuse
    | some arguments => .ok ⟨arguments, s :: p.given⟩

end Progress

/-- A word as it stands by itself. -/
inductive Word where
  /-- The end of the options. -/
  | ending
  /-- An option with a name, and the value in the same word. -/
  | long (name : String) (value : Option String)
  /-- An option with a letter, and the rest of the word. -/
  | short (letter : Char) (rest : List Char)
  /-- Any other word. -/
  | plain (text : String)
  deriving DecidableEq, Repr

/-- The kind of a word. -/
def Word.ofText (text : String) : Word :=
  match text.toList with
  | ['-', '-'] => ending
  | '-' :: '-' :: cs =>
    let name := cs.takeWhile (· != '=')
    long (String.ofList name)
      (if name.length < cs.length then some (String.ofList (cs.drop (name.length + 1)))
      else none)
  | '-' :: c :: cs => short c cs
  | _ => plain text

/-- The value that follows a letter in its word. -/
def attached? : List Char → Option String
  | [] => none
  | '=' :: cs => some (String.ofList cs)
  | cs => some (String.ofList cs)

/-- Go on after a switch: its value is in the same word or is the next
one. -/
def Progress.start (p : Progress) (s : Switch) (value : Option String) :
    Except Stop (Progress × Option Switch) :=
  match value with
  | none => .ok (p, some s)
  | some text => (p.give s text).map fun p => (p, none)

/-- Take in a word when no value is due.  A switch whose value is still
to come is returned. -/
def Progress.take (p : Progress) (w : Word) :
    Except Stop (Progress × Option Switch) :=
  match w with
  | .ending => .ok (p, none)
  | .plain _ => .error .misuse
  | .long name value =>
    if name = "help" ∧ value = none then .error .help
    else if name = "version" ∧ value = none then .error .version
    else
      match Switch.ofName? name with
      | none => .error .misuse
      | some s => p.start s value
  | .short letter rest =>
    if letter = 'h' then .error .help
    else if letter = 'V' then .error .version
    else
      match Switch.ofLetter? letter with
      | none => .error .misuse
      | some s => p.start s (attached? rest)

/-- Take in the words in turn.  `due` is the switch whose value is to come
next.  Nothing may follow the end of the options. -/
def readWords (p : Progress) (due : Option Switch) : List String → Except Stop Arguments
  | [] =>
    match due with
    | none => .ok p.arguments
    | some _ => .error .misuse
  | text :: texts =>
    match due, Word.ofText text with
    | some s, .plain value =>
      match p.give s value with
      | .error stop => .error stop
      | .ok p => readWords p none texts
    | some _, _ => .error .misuse
    | none, .ending =>
      if texts.isEmpty then .ok p.arguments else .error .misuse
    | none, w =>
      match p.take w with
      | .error stop => .error stop
      | .ok (p, due) => readWords p due texts

/-- The arguments in the words. -/
def Arguments.read (words : List String) : Except Stop Arguments :=
  readWords {} none words

end PooledRouting.Command
