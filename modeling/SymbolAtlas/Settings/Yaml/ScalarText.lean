import SymbolAtlas.Settings.Yaml.Scanner

/-!
# Texts of scalars

A scalar is written in quotes, without quotes, or in the lines that follow. Line ends inside of it
are folded: one is a space, and several stand for all but the first. Only in literal block scalars
they stay.
-/

namespace SymbolAtlas.Yaml

/-- The value of a hexadecimal digit. -/
def hexDigit? (c : Char) : Option Nat :=
  if c.isDigit then some (c.toNat - '0'.toNat)
  else if 'a' ≤ c && c ≤ 'f' then some (c.toNat - 'a'.toNat + 10)
  else if 'A' ≤ c && c ≤ 'F' then some (c.toNat - 'A'.toNat + 10)
  else none

/-- The number that hexadecimal digits stand for. -/
def hexNumber (digits : Text) : Nat :=
  digits.foldl (fun n c => n * 16 + (hexDigit? c).getD 0) 0

/-- What a line end and the line ends `more` after it stand for. -/
def foldBreaks (first : Char) (more : Text) : Text :=
  if first != '\n' then first :: more else if more = [] then [' '] else more

/-- What the character after a backslash stands for. -/
def escapes : List (Char × Char) :=
  [('0', '\x00'), ('a', '\x07'), ('b', '\x08'), ('t', '\t'), ('\t', '\t'), ('n', '\n'),
    ('v', '\x0b'), ('f', '\x0c'), ('r', '\r'), ('e', '\x1b'), (' ', ' '), ('\x22', '\x22'),
    ('\\', '\\'), ('/', '/'), ('N', '\x85'), ('_', '\xa0'), ('L', '\u2028'), ('P', '\u2029')]

/-- How many hexadecimal digits follow the character after a backslash. -/
def escapeDigits : List (Char × Nat) := [('x', 2), ('u', 4), ('U', 8)]

/-- The largest number of a character. -/
def lastCharacter : Nat := 0x10FFFF

namespace Scanning

/-- Steps over `count` hexadecimal digits and tells their number; `check` looks at it before. -/
def hexCode (count : Nat) (e : ScanError) (check : Nat → Scanning Unit) : Scanning Nat := do
  let digits := ((← get).rest.take count).takeWhile fun c => (hexDigit? c).isSome
  if digits.length < count then
    need digits.length
    throw e
  need (count - 1)
  check (hexNumber digits)
  forward count
  return hexNumber digits

/-! ### Scalars in quotes -/

/-- Line ends after the first, with the spaces between them left out. -/
def quotedBreaks (out : Text) : (fuel : Nat) → Scanning Text
  | 0 => return out.reverse
  | fuel + 1 => do
    if ← atMarker then throw .separatorInQuote
    let _ ← takeRun fun c => c == ' ' || c == '\t'
    match ← lineBreak? with
    | none => return out.reverse
    | some c => quotedBreaks (c :: out) fuel

/-- An escape sequence after its backslash. -/
def escape : Scanning Text := do
  match ← next with
  | none => throw .unknownEscape
  | some c =>
    match escapes.lookup c, escapeDigits.lookup c with
    | some e, _ =>
      forward 1
      return [e]
    | none, some count =>
      forward 1
      let code ← hexCode count .unknownEscape fun n =>
        if lastCharacter < n then throw (.unknownCharacter n) else return
      return [Char.ofNat code]
    | none, none =>
      match ← lineBreak? with
      | some _ => quotedBreaks [] (← get).size
      | none => throw .unknownEscape

/-- Spaces and line ends inside of quotes. -/
def quotedGap : Scanning Text := do
  let gap ← takeRun fun c => c == ' ' || c == '\t'
  if (← next).isNone then throw .unclosedQuote
  match ← lineBreak? with
  | none => return gap
  | some first => return foldBreaks first (← quotedBreaks [] (← get).size)

/-- The rest of a scalar in quotes, with `out` holding what was read so far in reverse. -/
def quoted (quote : Char) (out : Text) : (fuel : Nat) → Scanning Text
  | 0 => throw .unclosedQuote
  | fuel + 1 => do
    let run ← takeRun fun c =>
      !(c == '\x27' || c == '\x22' || c == '\\' || c == ' ' || c == '\t' || isBreak c)
    let out := run.reverse ++ out
    match ← next with
    | none => throw .unclosedQuote
    | some c =>
      if c == quote then
        if quote == '\x27' then
          if (← ahead 1) == some quote then
            forward 2
            return ← quoted quote (c :: out) fuel
        forward 1
        return out.reverse
      else if c == '\\' && quote == '\x22' then
        forward 1
        quoted quote ((← escape).reverse ++ out) fuel
      else if c == '\x27' || c == '\x22' || c == '\\' then
        forward 1
        quoted quote (c :: out) fuel
      else quoted quote ((← quotedGap).reverse ++ out) fuel

/-! ### Scalars without quotes -/

/-- Whether a character ends a plain scalar where `after` comes next. A colon does so before a gap,
and inside of flow collections before a bracket or a comma; there brackets, commas and question
marks end it too. -/
def endsPlain (level : Nat) (c : Char) (after : Option Char) : Bool :=
  isGap (some c) ||
    (c == ':' &&
      (isGap after || (level != 0 && after.any fun d => ",[]\x7b\x7d".toList.contains d))) ||
    (level != 0 && ",?[]\x7b\x7d".toList.contains c)

/-- The characters up to where a plain scalar ends. -/
def plainRun (level : Nat) : Text → Text
  | [] => []
  | c :: t => if endsPlain level c t.head? then [] else c :: plainRun level t

/-- Steps over the characters up to where a plain scalar ends. -/
def takePlain : Scanning Text := do
  let s ← get
  let run := plainRun s.level s.rest
  if s.rest[run.length]? == some ':' then need (run.length + 1)
  forward run.length
  return run

/-- Line ends and spaces after the first line end inside of a plain scalar; nothing if a document
marker comes. -/
def plainBreaks (out : Text) : (fuel : Nat) → Scanning (Option Text)
  | 0 => return some out.reverse
  | fuel + 1 => do
    skipSpaces
    match ← lineBreak? with
    | none => return some out.reverse
    | some c => if ← atMarker then return none else plainBreaks (c :: out) fuel

/-- What stands between two runs of a plain scalar: spaces, or folded line ends. -/
def plainGap : Scanning Text := do
  let gap ← takeRun (· == ' ')
  match ← lineBreak? with
  | none => return gap
  | some first =>
    allowKey true
    if ← atMarker then return []
    match ← plainBreaks [] (← get).size with
    | none => return []
    | some more => return foldBreaks first more

/-- The rest of a plain scalar, with `gap` standing between `out` and the next run. Both `out` and
the result are in reverse. -/
def plain (indent : Int) (out gap : Text) : (fuel : Nat) → Scanning Text
  | 0 => return out
  | fuel + 1 => do
    if (← next) == some '#' then return out
    let run ← takePlain
    if run = [] then return out
    allowKey false
    let out := run.reverse ++ gap.reverse ++ out
    let gap ← plainGap
    let s ← get
    if gap = [] || (← next) == some '#' || (s.level == 0 && s.column < indent) then return out
    plain indent out gap fuel

/-! ### Block scalars -/

/-- The rest of a line that may hold a comment and nothing else. -/
def ignoredLine (e : ScanError) : Scanning Unit := do
  skipSpaces
  skipComment
  if isLineEnd (← next) then
    let _ ← lineBreak?
  else throw e

/-- What happens to the line ends at the end of a block scalar. -/
inductive Chomp where
  /-- One of them stays. -/
  | clip
  /-- None of them stays. -/
  | strip
  /-- All of them stay. -/
  | keep
  deriving DecidableEq, Repr

/-- A sign in the header of a block scalar. -/
def chomp? : Scanning (Option Chomp) := do
  match ← next with
  | some '+' =>
    forward 1
    return some .keep
  | some '-' =>
    forward 1
    return some .strip
  | _ => return none

/-- A number in the header of a block scalar, which is not zero. -/
def increment? : Scanning (Option Nat) := do
  match ← next with
  | some c =>
    if c == '0' then throw .badBlockHeader
    if c.isDigit then
      forward 1
      return some (c.toNat - '0'.toNat)
    else return none
  | none => return none

/-- The header of a block scalar: a sign and a number in either order, or one of them, or none. -/
def blockHeader : Scanning (Chomp × Option Nat) := do
  let before ← chomp?
  let increment ← increment?
  let chomp ← if before.isNone && increment.isSome then chomp? else pure before
  if isSpace (← next) then return (chomp.getD .clip, increment) else throw .badBlockHeader

/-- The empty lines at the start of a block scalar, in reverse, and the largest column that their
spaces reach. -/
def blockIndent (out : Text) (reach : Nat) : (fuel : Nat) → Scanning (Text × Nat)
  | 0 => return (out, reach)
  | fuel + 1 => do
    let spaces ← takeRun (· == ' ')
    let column := (← get).column
    let reach := if spaces = [] then reach else max reach column
    match ← lineBreak? with
    | none => return (out, reach)
    | some c => blockIndent (c :: out) reach fuel

/-- Steps over spaces up to a column. -/
def spacesTo (indent : Nat) : Scanning Unit := do
  let s ← get
  forward ((s.rest.takeWhile (· == ' ')).length.min (indent - s.column))

/-- Empty lines inside of a block scalar, in reverse. -/
def blockBreaks (indent : Nat) (out : Text) : (fuel : Nat) → Scanning Text
  | 0 => return out
  | fuel + 1 => do
    spacesTo indent
    match ← lineBreak? with
    | none => return out
    | some c => blockBreaks indent (c :: out) fuel

/-- What stands between two lines of a block scalar, in reverse. In a folded scalar one line end
between lines that do not start with a blank is a space. -/
def blockFold (folded : Bool) (first : Char) (breaks : Text) (before after : Option Char) : Text :=
  let isText (c : Option Char) := c != some ' ' && c != some '\t'
  if folded && first == '\n' && isText before && isText after then
    if breaks = [] then [' '] else breaks
  else breaks ++ [first]

/-- The lines of a block scalar; `out` holds the text so far in reverse. The result comes with the
line ends after the last line: the first one, if there is one, and those of empty lines. -/
def blockLines (folded : Bool) (indent : Nat) (out : Text) :
    (fuel : Nat) → Scanning (Text × Text × Text)
  | 0 => return (out, [], [])
  | fuel + 1 => do
    let start ← next
    let line ← takeRun fun c => !isBreak c
    let out := line.reverse ++ out
    match ← lineBreak? with
    | none => return (out, [], [])
    | some first =>
      let breaks ← blockBreaks indent [] (← get).size
      let s ← get
      if s.column == indent && s.rest ≠ [] then
        blockLines folded indent (blockFold folded first breaks start s.rest.head? ++ out) fuel
      else return (out, [first], breaks)

/-- A block scalar after its first character. -/
def blockScalarText (folded : Bool) : Scanning Text := do
  let (chomp, increment) ← blockHeader
  ignoredLine .badBlockHeader
  let s ← get
  let least := max (s.indent + 1).toNat 1
  let (indent, breaks) ←
    match increment with
    | none => do
      let (breaks, reach) ← blockIndent [] 0 s.size
      pure (max least reach, breaks)
    | some n => do
      let breaks ← blockBreaks (least + n - 1) [] s.size
      pure (least + n - 1, breaks)
  let s ← get
  let (text, ending, empties) ←
    if s.column == indent && s.rest ≠ [] then blockLines folded indent breaks s.size
    else pure ([], [], breaks)
  match chomp with
  | .strip => return text.reverse
  | .clip => return (ending ++ text).reverse
  | .keep => return (empties ++ ending ++ text).reverse

end Scanning

end SymbolAtlas.Yaml
