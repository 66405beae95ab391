import SymbolAtlas.Text.Basic

/-!
# Punctuation outside strings and comments

A text is read one character at a time by a small automaton that knows whether the next
character is code, or part of a comment or of a quoted string. The code characters among
`{ } ( ) ;` are the *marks* of the text.

| Mode | Left by |
|---|---|
| `code` | a quote, or a slash |
| `slash`, just after a slash in code | a second slash or an asterisk opens a comment |
| `lineComment` | a line feed |
| `blockComment`, `blockStar` | an asterisk followed by a slash |
| `literal q` | the quote `q`, or a line feed unless `q` is a backquote |
| `escape q`, just after a backslash | any one character |

Braces and parentheses are then matched with a stack. A closer that does not fit the innermost
open mark is kept as a mark but closes nothing.
-/

namespace SymbolAtlas

/-- The quote whose strings may run over several lines. -/
def backquote : Char := '\x60'

/-- Strings stand between double quotes, single quotes or backquotes. -/
def isQuote (c : Char) : Bool := c == '\x22' || c == '\x27' || c == backquote

/-- What the next character of a text belongs to. -/
inductive Mode where
  | code
  | slash
  | lineComment
  | blockComment
  | blockStar
  | literal (quote : Char)
  | escape (quote : Char)
  deriving DecidableEq, Repr

namespace Mode

/-- The mode after a code character. -/
def afterCode (c : Char) : Mode :=
  if isQuote c then .literal c
  else if c == '/' then .slash
  else .code

/-- The mode after reading `c` in mode `m`. -/
def step (m : Mode) (c : Char) : Mode :=
  match m with
  | .code => afterCode c
  | .slash =>
    if c == '/' then .lineComment else if c == '*' then .blockComment else afterCode c
  | .lineComment => if c == '\n' then .code else .lineComment
  | .blockComment => if c == '*' then .blockStar else .blockComment
  | .blockStar =>
    if c == '/' then .code else if c == '*' then .blockStar else .blockComment
  | .literal q =>
    if c == '\\' then .escape q
    else if c == q then .code
    else if c == '\n' && q != backquote then .code
    else .literal q
  | .escape q => .literal q

/-- Whether a mark read in this mode is code. -/
def readsCode : Mode → Bool
  | .code | .slash => true
  | _ => false

end Mode

/-- The characters that delimit parameter lists, bodies and statements. -/
def isMark (c : Char) : Bool :=
  c == '{' || c == '}' || c == '(' || c == ')' || c == ';'

/-- A mark and its offset. -/
structure Mark where
  offset : Nat
  char : Char
  deriving DecidableEq, Repr

/-- The marks of a text read from mode `m` on, whose first character has offset `offset`. -/
def marksFrom (m : Mode) (offset : Nat) : Text → List Mark
  | [] => []
  | c :: t =>
    if m.readsCode && isMark c then ⟨offset, c⟩ :: marksFrom (m.step c) (offset + 1) t
    else marksFrom (m.step c) (offset + 1) t

/-- Whether the mark `closer` closes the mark `opener`. -/
def Mark.closes (closer opener : Mark) : Bool :=
  (closer.char == '}' && opener.char == '{') || (closer.char == ')' && opener.char == '(')

/-- The offsets of matched openers and closers, given the openers still open, innermost first.
Pairs are listed by their closers. -/
def pairsFrom (opened : List Mark) : List Mark → List (Nat × Nat)
  | [] => []
  | m :: ms =>
    if m.char == '{' || m.char == '(' then pairsFrom (m :: opened) ms
    else
      match opened with
      | [] => pairsFrom opened ms
      | o :: os =>
        if m.closes o then (o.offset, m.offset) :: pairsFrom os ms else pairsFrom opened ms

/-- The marks of a text in order, and the offsets of those that match each other. -/
structure Punctuation where
  marks : List Mark
  pairs : List (Nat × Nat)
  deriving Repr

namespace Punctuation

/-- The marks of a whole text and their pairs. -/
def ofText (t : Text) : Punctuation :=
  let marks := marksFrom .code 0 t
  ⟨marks, pairsFrom [] marks⟩

/-- The offset that closes the opener at `offset`, if it is closed. -/
def closer? (p : Punctuation) (offset : Nat) : Option Nat := p.pairs.lookup offset

/-- Where a block of braces runs: from its opener to its closer, if it has one. -/
structure Block where
  opener : Nat
  closer : Option Nat
  deriving DecidableEq, Repr

/-- The block that comes next among `ms`, skipping complete parenthesised groups. -/
def blockAmong (p : Punctuation) (ms : List Mark) : Option Block :=
  match ms with
  | [] => none
  | m :: rest =>
    if m.char == '(' then
      match p.closer? m.offset with
      | none => none
      | some close => p.blockAmong (rest.dropWhile (·.offset ≤ close))
    else if m.char == '{' then some ⟨m.offset, p.closer? m.offset⟩
    else none
termination_by ms.length
decreasing_by
  have := (List.dropWhile_sublist (fun x : Mark => decide (x.offset ≤ close)) (l := rest)).length_le
  simp only [List.length_cons]
  omega

/-- The block that follows `offset`, with nothing before it but complete parenthesised groups. -/
def blockAfter (p : Punctuation) (offset : Nat) : Option Block :=
  p.blockAmong (p.marks.dropWhile (·.offset < offset))

end Punctuation

end SymbolAtlas
