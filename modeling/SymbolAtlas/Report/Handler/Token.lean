import SymbolAtlas.Report.Handler.Fault
import SymbolAtlas.Text.Identifier

/-!
# Tokens of expressions

An expression is cut into names, numbers, texts in quotes and symbols. Inside of brackets line ends
do not count; outside of them they are tokens, and so are changes of the indentation.

Cutting stops at the first characters that make no token. Brackets that are still open at the end
stop it too.
-/

namespace SymbolAtlas.Report.Handler

/-- What a token is. -/
inductive Kind where
  | name (t : Text)
  | number (t : Text)
  /-- A text with its quotes and the letters before them. -/
  | quoted (t : Text)
  /-- An operator, a bracket or a word with a meaning of its own. -/
  | symbol (s : String)
  | newline
  | indent
  | dedent
  | finish
  deriving DecidableEq, Repr

/-- A piece of an expression. -/
structure Token where
  kind : Kind
  /-- How many brackets are open after it. -/
  level : Nat
  line : Nat
  /-- Whether the end of the text had to be seen to know where it ends. -/
  atEnd : Bool
  deriving DecidableEq, Repr

/-- A fault of characters. -/
abbrev Scanned := Except ScanFault

/-! ### Texts in quotes -/

/-- The number of characters up to the end of a text in quotes. -/
def quotedLength? (quote : Text) : Text → Option Nat
  | [] => none
  | c :: t =>
    if quote.isPrefixOf (c :: t) then some quote.length
    else if c == '\\' then
      match t with
      | [] => none
      | _ :: t => (quotedLength? quote t).map (· + 2)
    else if c == '\n' && quote.length = 1 then none
    else (quotedLength? quote t).map (· + 1)

/-- How many lines a quote that is not closed goes on for. -/
def openLines (single : Bool) : Text → Nat
  | [] => 0
  | '\\' :: c :: t => openLines single t + if c == '\n' && t ≠ [] then 1 else 0
  | c :: t =>
    if c == '\n' then if single || t = [] then 0 else openLines single t + 1
    else openLines single t

/-- What may stand right before a quote. -/
def quoteLetters : List String := ["", "r", "b", "u", "f", "br", "rb", "fr", "rf"]

/-- The length of a text in quotes, if one begins here, on a line. -/
def quoted? (line : Nat) (t : Text) : Scanned (Option Nat) :=
  let word := t.takeWhile Char.isAlpha
  match t.drop word.length with
  | q :: rest =>
    let known := quoteLetters.contains (String.ofList word).toLower
    if known && (q == '\x27' || q == '\x22') then
      if [q, q].isPrefixOf rest then
        match quotedLength? [q, q, q] (rest.drop 2) with
        | some n => .ok (some (word.length + 3 + n))
        | none => .error (.unclosedTripleQuote (line + openLines false (rest.drop 2)))
      else
        match quotedLength? [q] rest with
        | some n => .ok (some (word.length + 1 + n))
        | none => .error (.unclosedQuote (line + openLines true rest))
    else .ok none
  | [] => .ok none

/-! ### Numbers -/

/-- Words that may follow a number without a blank. -/
def wordsAfterNumber : List String := ["and", "else", "for", "or", "not"]

/-- Starts of words that may follow a number without a blank. -/
def startsAfterNumber : List String := ["if", "in", "is"]

/-- Whether a character may belong to a name, as far as its number says. -/
def isNameLike (c : Char) : Bool := c.isAlphanum || c == '_' || 128 ≤ c.toNat

/-- Whether a text begins with a word that ends there. -/
def beginsWithWord (t : Text) (w : String) : Bool :=
  w.toList.isPrefixOf t && !(t.drop w.length).head?.any isNameLike

/-- What follows a number: nothing that could belong to it. -/
def numberEnd (form : Notation) (t : Text) : Scanned Text :=
  if wordsAfterNumber.any (beginsWithWord t) then .ok t
  else if startsAfterNumber.any fun w => w.toList.isPrefixOf t then .ok t
  else if t.head?.any fun c => c.isAlphanum || c == '_' then .error (.badNumber form)
  else .ok t

/-- The rest of a text after digits with single underscores between them. The first digit has been
read. -/
def afterDigits (form : Notation) (isDigit : Char → Bool) : Text → Scanned Text
  | [] => .ok []
  | '_' :: t =>
    match t with
    | c :: t => if isDigit c then afterDigits form isDigit t else .error (.badNumber form)
    | [] => .error (.badNumber form)
  | c :: t => if isDigit c then afterDigits form isDigit t else .ok (c :: t)

/-- The fault of a digit that is none in some notation. -/
def badDigit (form : Notation) (t : Text) : ScanFault :=
  match t with
  | c :: _ =>
    if c.isDigit && form ≠ .hexadecimal then .badDigit c form else .badNumber form
  | [] => .badNumber form

/-- The rest of a text after groups of digits, where an underscore stands between two groups. -/
def afterGroups (form : Notation) (isDigit : Char → Bool) : (fuel : Nat) → Text → Scanned Text
  | 0, t => .ok t
  | fuel + 1, t =>
    let digits := if t.head? == some '_' then t.drop 1 else t
    let run := digits.takeWhile isDigit
    let rest := digits.drop run.length
    if run = [] then .error (badDigit form digits)
    else if rest.head? == some '_' then afterGroups form isDigit fuel rest
    else .ok rest

/-- The rest of a text after a number with a letter for its notation, from its digits on. -/
def afterMarked (form : Notation) (isDigit : Char → Bool) (t : Text) : Scanned Text := do
  let rest ← afterGroups form isDigit (t.length + 1) t
  if rest.head?.any Char.isDigit then throw (badDigit form rest)
  numberEnd form rest

/-- The rest of a text after the sign of an imaginary number, if there is one. -/
def afterImaginary (t : Text) : Scanned Text :=
  match t with
  | c :: rest =>
    if c == 'j' || c == 'J' then numberEnd .imaginary rest else numberEnd .decimal t
  | [] => .ok []

/-- The rest of a text after an exponent, if there is one. -/
def afterExponent (t : Text) : Scanned Text :=
  match t with
  | e :: rest =>
    if e == 'e' || e == 'E' then
      match rest with
      | c :: digits =>
        if c == '+' || c == '-' then
          if digits.head?.any Char.isDigit then do
            afterImaginary (← afterDigits .decimal Char.isDigit (digits.drop 1))
          else .error (.badNumber .decimal)
        else if c.isDigit then do
          afterImaginary (← afterDigits .decimal Char.isDigit digits)
        else numberEnd .decimal t
      | [] => numberEnd .decimal t
    else afterImaginary t
  | [] => .ok []

/-- The rest of a text after the digits behind a point. -/
def afterFraction (t : Text) : Scanned Text :=
  if t.head?.any Char.isDigit then do
    afterExponent (← afterDigits .decimal Char.isDigit (t.drop 1))
  else afterExponent t

/-- The rest of a text after a number in decimal notation. A whole number does not begin with
zeros, unless it is zero. -/
def afterDecimal (t : Text) : Scanned Text := do
  let rest ← afterDigits .decimal Char.isDigit t
  let whole := t.take (t.length - rest.length)
  match rest with
  | '.' :: rest => afterFraction rest
  | _ =>
    let zeros := whole.head? = some '0' && whole.any fun c => c != '0' && c != '_'
    if zeros && !(rest.head?.any fun c => "eEjJ".toList.contains c) then throw .leadingZeros
    afterExponent rest

/-- Whether a character is a hexadecimal digit. -/
def isHex (c : Char) : Bool := c.isDigit || ('a' ≤ c.toLower && c.toLower ≤ 'f')

/-- The rest of a text after the number that it begins with. -/
def afterNumber (t : Text) : Scanned Text :=
  match t with
  | '0' :: c :: digits =>
    if c == 'x' || c == 'X' then afterMarked .hexadecimal isHex digits
    else if c == 'o' || c == 'O' then afterMarked .octal (fun c => '0' ≤ c && c ≤ '7') digits
    else if c == 'b' || c == 'B' then afterMarked .binary (fun c => c == '0' || c == '1') digits
    else afterDecimal t
  | '.' :: digits => afterFraction digits
  | t => afterDecimal t

/-! ### Names and symbols -/

/-- Words with a meaning of their own. -/
def reservedWords : List String :=
  ["False", "None", "True", "and", "as", "assert", "async", "await", "break", "class", "continue",
    "def", "del", "elif", "else", "except", "finally", "for", "from", "global", "if", "import",
    "in", "is", "lambda", "nonlocal", "not", "or", "pass", "raise", "return", "try", "while",
    "with", "yield"]

/-- The first character of a name that may not stand there. -/
def strayPart? (t : Text) : Option Char :=
  match t with
  | c :: rest => if isIdentifierStart c then rest.find? (!isIdentifierPart ·) else some c
  | [] => none

/-- A name, or a word with a meaning of its own. -/
def nameKind (t : Text) : Scanned Kind :=
  match strayPart? t with
  | some c => .error (.strayCharacter c)
  | none =>
    let word := String.ofList t
    .ok (if reservedWords.contains word then .symbol word else .name t)

/-- Symbols of more than one character, the longer ones first. -/
def longSymbols : List String :=
  ["**=", "//=", "<<=", ">>=", "...", "!=", "%=", "&=", "**", "*=", "+=", "-=", "->", "//", "/=",
    ":=", "<<", "<=", "<>", "==", ">=", ">>", "@=", "^=", "|="]

/-- The symbol that a text begins with. -/
def symbolAt (t : Text) : Scanned String :=
  match longSymbols.find? fun s => s.toList.isPrefixOf t, t with
  | some s, _ => .ok s
  | none, c :: _ => if isPrintable c then .ok c.toString else .error (.strayCharacter c)
  | none, [] => .error .endedEarly

/-- The token that a text on a line begins with, which is no blank, and its length. -/
def tokenAt (line : Nat) (t : Text) : Scanned (Kind × Nat) := do
  match ← quoted? line t with
  | some n => return (.quoted (t.take n), n)
  | none =>
    match t with
    | [] => throw .endedEarly
    | c :: rest =>
      if c.isDigit || (c == '.' && rest.head?.any Char.isDigit) then
        let rest ← afterNumber t
        let size := t.length - rest.length
        return (.number (t.take size), size)
      else if isNameLike c then
        let run := t.takeWhile isNameLike
        return (← nameKind run, run.length)
      else
        let s ← symbolAt t
        return (.symbol s, s.length)

/-! ### Sources -/

/-- Why cutting stops. -/
inductive Stop where
  /-- There are characters that make no token. -/
  | broken (f : ScanFault)
  /-- The text does not go on as it has to. -/
  | cut (f : ScanFault)
  deriving DecidableEq, Repr

/-- An expression in tokens. -/
structure Source where
  tokens : Array Token
  /-- Why there are no more tokens; otherwise the last one is `finish`. -/
  stop : Option Stop
  /-- The brackets that are open at the end with their lines, innermost first. -/
  brackets : List (Char × Nat)
  deriving Repr

/-- The most brackets that may be open. -/
def mostBrackets : Nat := 200

/-- How far a text has been cut into tokens. -/
structure Cutting where
  line : Nat
  /-- The brackets that are open with their lines, innermost first. -/
  brackets : List (Char × Nat)
  /-- The columns of indented lines, innermost first; tabs count as up to eight columns in the first
  number and as one in the second. -/
  indents : List (Nat × Nat)
  /-- The tokens, last first. -/
  tokens : List Token
  deriving Repr

namespace Cutting

/-- Adds a token. -/
def push (s : Cutting) (k : Kind) (atEnd : Bool) : Cutting :=
  { s with tokens := ⟨k, s.brackets.length, s.line, atEnd⟩ :: s.tokens }

/-- The end of cutting. -/
def close (s : Cutting) (stop : Option Stop) : Source :=
  ⟨s.tokens.reverse.toArray, stop, s.brackets⟩

/-- Opens a bracket. -/
def openBracket (s : Cutting) (c : Char) (atEnd : Bool) : Scanned Cutting :=
  if mostBrackets ≤ s.brackets.length then .error .tooManyBrackets
  else .ok ({ s with brackets := (c, s.line) :: s.brackets }.push (.symbol c.toString) atEnd)

/-- Closes a bracket. -/
def closeBracket (s : Cutting) (c : Char) (atEnd : Bool) : Scanned Cutting :=
  match s.brackets with
  | [] => .error (.unmatched c)
  | (o, line) :: outer =>
    if (o == '(') == (c == ')') then
      .ok ({ s with brackets := outer }.push (.symbol c.toString) atEnd)
    else .error (.mismatched c o (if line = s.line then none else some line))

/-- Whether the character after a token has to be seen to know where the token ends. -/
def looksAhead : Kind → Bool
  | .quoted t => (t.dropWhile Char.isAlpha).length = 2
  | .symbol s => s.length < 3 || s.all Char.isAlpha
  | _ => true

/-- Adds the token that a text begins with, and gives the text after it. -/
def next (s : Cutting) (t : Text) : Scanned (Cutting × Text) :=
  match t with
  | [] => .ok (s, [])
  | c :: rest =>
    if c == '(' || c == '\x7b' then (s.openBracket c rest.isEmpty).map (·, rest)
    else if c == ')' || c == '\x7d' then (s.closeBracket c rest.isEmpty).map (·, rest)
    else
      (tokenAt s.line t).map fun (k, n) =>
        let rest := t.drop n
        ({ s.push k (rest.isEmpty && looksAhead k) with
            line := s.line + (t.take n).count '\n' }, rest)

/-- The indentation at the start of a text: its columns, and the text after it. A line may go on
after a backslash, with the columns before the first one. Nothing is given where the backslash is
not the end of its line. -/
def indentation (columns : Nat × Nat) (held : Option (Nat × Nat)) (lines : Nat) :
    Text → Option ((Nat × Nat) × Nat × Text)
  | ' ' :: t => indentation (columns.1 + 1, columns.2 + 1) held lines t
  | '\t' :: t => indentation ((columns.1 / 8 + 1) * 8, columns.2 + 1) held lines t
  | '\x0c' :: t => indentation (0, 0) held lines t
  | '\\' :: '\n' :: t =>
    let first := if columns.1 = 0 then held else held.or (some (columns.1, columns.1))
    indentation columns first (lines + 1) t
  | '\\' :: _ => none
  | t => some (held.getD columns, lines, t)

/-- Compares the indentation of a line with that of the lines before. -/
def indent (s : Cutting) (columns : Nat × Nat) : Except Stop Cutting :=
  match s.indents with
  | [] => .ok s
  | here :: _ =>
    if columns.1 = here.1 then
      if columns.2 = here.2 then .ok s else .error (.cut .mixedIndent)
    else if here.1 < columns.1 then
      if columns.2 ≤ here.2 then .error (.cut .mixedIndent)
      else .ok ({ s with indents := columns :: s.indents }.push .indent false)
    else
      let inner := s.indents.takeWhile fun i => columns.1 < i.1
      let outer := s.indents.drop inner.length
      let s := inner.foldl (fun s _ => s.push .dedent false) { s with indents := outer }
      match outer with
      | i :: _ =>
        if i.1 ≠ columns.1 then .error (.cut .unevenIndent)
        else if i.2 ≠ columns.2 then .error (.cut .mixedIndent)
        else .ok s
      | [] => .ok s

/-- Cuts the rest of a text; `fresh` says that a line starts here. -/
def run (s : Cutting) (fresh : Bool) : (fuel : Nat) → Text → Source
  | 0, _ => s.close (some (.cut .endedEarly))
  | fuel + 1, t =>
    if fresh then
      match indentation (0, 0) none 0 t with
      | none => s.close (some (.cut .strayBackslash))
      | some (columns, lines, rest) =>
        let s := { s with line := s.line + lines }
        let blank := rest.head? == some '#' || rest.head? == some '\n'
        if blank then
          match rest.dropWhile (· != '\n') with
          | _ :: rest => run { s with line := s.line + 1 } true fuel rest
          | [] => run s false fuel []
        else if s.brackets ≠ [] then run s false fuel rest
        else
          match s.indent columns with
          | .error stop => s.close (some stop)
          | .ok s => run s false fuel rest
    else
      match t.dropWhile fun c => c == ' ' || c == '\t' || c == '\x0c' with
      | [] =>
        if s.brackets = [] then (s.push .finish true).close none
        else s.close (some (.cut .endedEarly))
      | '#' :: rest => run s false fuel (rest.dropWhile (· != '\n'))
      | '\n' :: rest =>
        let s := if s.brackets = [] then s.push .newline false else s
        run { s with line := s.line + 1 } true fuel rest
      | '\\' :: rest =>
        match rest with
        | '\n' :: rest =>
          if rest = [] then s.close (some (.cut .endedEarly))
          else run { s with line := s.line + 1 } false fuel rest
        | _ => s.close (some (.cut .strayBackslash))
      | t =>
        match s.next t with
        | .error f => s.close (some (.broken f))
        | .ok (s, rest) => run s false fuel rest

end Cutting

/-- The text with one line feed for each line end. -/
def lineFeeds : Text → Text
  | '\r' :: '\n' :: t => '\n' :: lineFeeds t
  | '\r' :: t => '\n' :: lineFeeds t
  | c :: t => c :: lineFeeds t
  | [] => []

/-- Cuts a text into tokens. -/
def Source.ofText (t : Text) : Source :=
  let t := lineFeeds t
  Cutting.run ⟨1, [], [(0, 0)], []⟩ true (2 * t.length + 2) t

/-- The fault of a text that does not go on. Brackets that are open come first. -/
def Source.stopFault (s : Source) : Stop → ScanFault
  | .broken f => f
  | .cut .endedEarly =>
    match s.brackets with
    | (c, _) :: _ => .neverClosed c
    | [] => .endedEarly
  | .cut f => f

end SymbolAtlas.Report.Handler
