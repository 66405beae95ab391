import SymbolAtlas.Settings.Yaml.Token

/-!
# Reading characters

A scanner stands between two characters of a file. It moves forward only, and it may look ahead; for
both the characters have to be there. `need` is where a file that cannot be read on is found out: to
step over `n` characters, or to look at the one after them, that one has to be there too, or else
the end of the file.
-/

namespace SymbolAtlas.Yaml

/-- A place where a key may have begun. -/
structure KeyPlace where
  /-- How many flow collections were open. -/
  level : Nat
  /-- The number of the key's first token. -/
  token : Nat
  /-- Whether nothing but a key may stand there. -/
  required : Bool
  offset : Nat
  line : Nat
  column : Nat
  deriving DecidableEq, Repr

/-- How far a file has been read. -/
structure Scanner where
  rest : Text
  /-- Where the first piece begins that cannot be read, and why it cannot. -/
  stop : Option (Nat × SourceError)
  /-- More than the number of characters in the file. -/
  size : Nat
  offset : Nat
  line : Nat
  column : Nat
  /-- How many flow collections are open. -/
  level : Nat
  /-- The column of the innermost block collection, `-1` outside of all. -/
  indent : Int
  /-- The columns of the block collections around it, innermost first. -/
  outer : List Int
  /-- Whether a key may begin here. -/
  keyAllowed : Bool
  places : List KeyPlace
  /-- The tokens found, last first, and how many they are. -/
  tokens : List Token
  count : Nat
  deriving Repr

/-- Characters that end a line, after carriage returns have become line feeds. -/
def isBreak (c : Char) : Bool :=
  c == '\n' || c == '\x85' || c == '\u2028' || c == '\u2029'

/-- Whether there is a space, a tab or the end of a line, or nothing. -/
def isGap (c : Option Char) : Bool := c.all fun c => c == ' ' || c == '\t' || isBreak c

/-- Whether there is the end of a line, or nothing. -/
def isLineEnd (c : Option Char) : Bool := c.all isBreak

/-- Whether there is a space or the end of a line, or nothing. -/
def isSpace (c : Option Char) : Bool := c == some ' ' || isLineEnd c

namespace Scanner

/-- A scanner at the start of a file. -/
def ofSource (s : Source) : Scanner :=
  ⟨s.text, s.stop, s.text.length + 1, 0, 0, 0, 0, -1, [], true, [], [], 0⟩

/-- The scanner after one character. -/
def step (s : Scanner) : Scanner :=
  match s.rest with
  | [] => s
  | c :: t =>
    let s := { s with rest := t, offset := s.offset + 1 }
    if isBreak c then { s with line := s.line + 1, column := 0 }
    else if c == '\ufeff' then s
    else { s with column := s.column + 1 }

/-- The scanner after `n` characters. -/
def skip (s : Scanner) : Nat → Scanner
  | 0 => s
  | n + 1 => s.step.skip n

end Scanner

/-- What reads on in a file. -/
abbrev Scanning (α : Type) := StateT Scanner (Except ScanError) α

namespace Scanning

/-- Sees to it that the character `n` places ahead is there. -/
def need (n : Nat) : Scanning Unit := do
  let s ← get
  match s.stop with
  | none => return
  | some (start, e) => if start ≤ s.offset + n then throw (.source e)

/-- The next character. -/
def next : Scanning (Option Char) := return (← get).rest.head?

/-- The character `n` places ahead. -/
def ahead (n : Nat) : Scanning (Option Char) := do
  need n
  return (← get).rest[n]?

/-- Steps over `n` characters. -/
def forward (n : Nat) : Scanning Unit := do
  need n
  modify (·.skip n)

/-- Steps over the characters that have a property, as far as they follow each other. -/
def takeRun (p : Char → Bool) : Scanning Text := do
  let run := (← get).rest.takeWhile p
  forward run.length
  return run

/-- Steps over spaces. -/
def skipSpaces : Scanning Unit := do
  let _ ← takeRun (· == ' ')

/-- Steps over a comment, if there is one. -/
def skipComment : Scanning Unit := do
  if (← next) == some '#' then
    let _ ← takeRun fun c => !isBreak c

/-- Steps over the end of a line, if there is one, and tells what it counts as. -/
def lineBreak? : Scanning (Option Char) := do
  match ← next with
  | none => return none
  | some c =>
    if isBreak c then
      forward 1
      return some (if c == '\x85' then '\n' else c)
    else return none

/-- Whether a document marker comes next. -/
def atMarker : Scanning Bool := do
  need 2
  match (← get).rest with
  | '-' :: '-' :: '-' :: _ | '.' :: '.' :: '.' :: _ => return isGap (← ahead 3)
  | _ => return false

/-- Adds a token. -/
def emit (t : Token) : Scanning Unit :=
  modify fun s => { s with tokens := t :: s.tokens, count := s.count + 1 }

/-- Adds a token in front of token number `n`. -/
def emitAt (n : Nat) (t : Token) : Scanning Unit :=
  modify fun s =>
    let after := s.count - n
    { s with tokens := s.tokens.take after ++ t :: s.tokens.drop after, count := s.count + 1 }

/-- Says whether a key may begin here. -/
def allowKey (allowed : Bool) : Scanning Unit := modify fun s => { s with keyAllowed := allowed }

end Scanning

end SymbolAtlas.Yaml
