import SymbolAtlas.Report.Handler.Expr
import SymbolAtlas.Report.CharacterName

/-!
# Texts in quotes

Texts in quotes that follow each other are one text. Letters before the first quote say what it is
made of: bytes after `b`, characters as they are written after `r`, and fields in curly brackets
after `f`. Otherwise a backslash begins an escape sequence, which has to be complete.

A field holds an expression, perhaps an equals sign, a conversion after an exclamation mark and a
format after a colon, which may have fields of its own.
-/

namespace SymbolAtlas.Report.Handler

/-! ### Escape sequences -/

/-- How many places a character takes when escape sequences are read: those beyond ASCII are
written out as numbers. -/
def placesOf (c : Char) : Nat := if c.toNat < 128 then 1 else 10

/-- The number of places of a text. A backslash that escapes nothing is written out too. -/
def placesIn : Text → Nat
  | [] => 0
  | '\\' :: rest =>
    match rest with
    | [] => 6
    | c :: t => (if c.toNat < 128 then 2 else 16) + placesIn t
  | c :: t => placesOf c + placesIn t

/-- Reads an escape sequence of hexadecimal digits, from its first digit on. -/
def hexFault? (place count : Nat) (short : EscapeFault) (t : Text) : Option Fault :=
  let digits := (t.take count).takeWhile isHex
  let stop := place + 2 + digits.length
  if digits.length < count then some (.escape place stop short)
  else if 0x10FFFF < Radix.value 16 digits then some (.escape place stop .largeNumber)
  else none

/-- Reads the name of a character, from its bracket on. -/
def nameFault? (place : Nat) (t : Text) : Option Fault :=
  match t with
  | '\x7b' :: rest =>
    let name := rest.takeWhile (· != '\x7d')
    let stop := place + 3 + placesIn name
    if name.length = rest.length || name = [] then some (.escape place stop .malformedName)
    else if isCharacterName name then none
    else some (.escape place (stop + 1) .unknownName)
  | _ => some (.escape place (place + 2) .malformedName)

/-- What is wrong with the escape sequences of a text that starts at a place. -/
def escapeFault? (place : Nat) : Text → Option Fault
  | [] => none
  | '\\' :: rest =>
    match rest with
    | [] => none
    | c :: t =>
      if 128 ≤ c.toNat then escapeFault? (place + 6 + placesOf c) t
      else
        let fault :=
          if c == 'x' then hexFault? place 2 .shortByte t
          else if c == 'u' then hexFault? place 4 .shortUnit t
          else if c == 'U' then hexFault? place 8 .shortNumber t
          else if c == 'N' then nameFault? place t
          else none
        fault.or (escapeFault? (place + 2) t)
  | c :: t => escapeFault? (place + placesOf c) t

/-- What is wrong with the escape sequences of bytes. -/
def byteFault? (place : Nat) : Text → Option Fault
  | [] => none
  | '\\' :: rest =>
    match rest with
    | [] => none
    | c :: t =>
      if c == 'x' && ((t.take 2).takeWhile isHex).length < 2 then some (.byteEscape place)
      else byteFault? (place + 2) t
  | _ :: t => byteFault? (place + 1) t

/-! ### Fields -/

/-- The text before the next field, what follows it, and whether it ends with one of two equal
brackets, which stand for one. Brackets are only doubled outside of fields. -/
def fieldless (raw nested : Bool) (done : Text) : (fuel : Nat) → Text →
    Except Fault (Text × Text × Bool)
  | 0, t => .ok (done.reverse, t, false)
  | fuel + 1, t =>
    let brace (done : Text) (c : Char) (rest : Text) : Except Fault (Text × Text × Bool) :=
      if nested then .ok (done.reverse, c :: rest, false)
      else if rest.head? == some c then .ok ((c :: done).reverse, rest.drop 1, true)
      else if c == '\x7d' then .error (.field .singleClose)
      else .ok (done.reverse, c :: rest, false)
    match t with
    | [] => .ok (done.reverse, [], false)
    | c :: rest =>
      if !raw && c == '\\' && rest ≠ [] then
        match rest with
        | 'N' :: '\x7b' :: more =>
          let name := more.takeWhile (· != '\x7d')
          let skipped := 'N' :: '\x7b' :: more.take (name.length + 1)
          fieldless raw nested (skipped.reverse ++ c :: done) fuel (more.drop (name.length + 1))
        | 'N' :: more =>
          fieldless raw nested ((more.take 1).reverse ++ 'N' :: c :: done) fuel (more.drop 1)
        | d :: more =>
          if d == '\x7b' || d == '\x7d' then brace (c :: done) d more
          else fieldless raw nested (d :: c :: done) fuel more
        | [] => .ok (done.reverse, [], false)
      else if c == '\x7b' || c == '\x7d' then brace done c rest
      else fieldless raw nested (c :: done) fuel rest

/-- The expression at the start of a field, in reverse, and what follows it. The first `skip`
characters are taken as they are; `quote` is the quote that is open and whether it is a triple one;
`brackets` are those that are open, innermost first. -/
def fieldExpr (skip : Nat) (quote : Option (Char × Bool)) (brackets : List Char) (done : Text) :
    Text → Except Fault (Text × Text)
  | [] =>
    match quote, brackets with
    | some _, _ => .error (.field .unclosedQuote)
    | none, b :: _ => .error (.field (.unmatched b))
    | none, [] => .error (.field .missingClose)
  | c :: t =>
    match skip with
    | n + 1 => fieldExpr n quote brackets (c :: done) t
    | 0 =>
      if c == '\\' then .error (.field .backslash)
      else
        match quote with
        | some (q, triple) =>
          if c != q then fieldExpr 0 quote brackets (c :: done) t
          else if !triple then fieldExpr 0 none brackets (c :: done) t
          else if [q, q].isPrefixOf t then fieldExpr 2 none brackets (c :: done) t
          else fieldExpr 0 quote brackets (c :: done) t
        | none =>
          if c == '\x27' || c == '\x22' then
            if [c, c].isPrefixOf t then fieldExpr 2 (some (c, true)) brackets (c :: done) t
            else fieldExpr 0 (some (c, false)) brackets (c :: done) t
          else if c == '(' || c == '\x7b' then
            if mostBrackets ≤ brackets.length then .error (.field .tooManyBrackets)
            else fieldExpr 0 none (c :: brackets) (c :: done) t
          else if c == '#' then .error (.field .comment)
          else if brackets = [] && "!:\x7d=><".toList.contains c then
            if "!=<>".toList.contains c && t.head? == some '=' then
              fieldExpr 1 none brackets (c :: done) t
            else if c == '<' || c == '>' then fieldExpr 0 none brackets (c :: done) t
            else .ok (done, c :: t)
          else if c == ')' || c == '\x7d' then
            match brackets with
            | [] => .error (.field (.unmatched c))
            | b :: outer =>
              if (b == '(') == (c == ')') then fieldExpr 0 none outer (c :: done) t
              else .error (.field (.mismatched c b))
          else fieldExpr 0 none brackets (c :: done) t

/-- Checks the expression of a field, which ends before a character. -/
def checkFieldExpr (check : Text → Except Fault Unit) (e : Text) (stop : Char) :
    Except Fault Unit :=
  if e.all fun c => c == ' ' || c == '\t' || c == '\n' || c == '\x0c' then
    if stop == '!' || stop == ':' || stop == '=' then .error (.field (.nothingBefore stop))
    else .error (.field .empty)
  else check e

/-- What follows an equals sign and blanks in a field. -/
def afterEquals (t : Text) : Except Fault Text :=
  match t with
  | '=' :: rest =>
    match rest.dropWhile fun c => c == ' ' || (9 ≤ c.toNat && c.toNat ≤ 13) with
    | [] => .error (.field .missingClose)
    | rest => .ok rest
  | t => .ok t

/-- What follows a conversion in a field. -/
def afterConversion (t : Text) : Except Fault Text :=
  match t with
  | '!' :: rest =>
    match rest with
    | [] => .error (.field .missingClose)
    | c :: rest =>
      if c == 's' || c == 'r' || c == 'a' then .ok rest else .error (.field .badConversion)
  | t => .ok t

/-- Checks a text with fields and gives what follows it, which is nothing at the outermost level
and the bracket after a format otherwise. -/
def checkFields (check : Text → Except Fault Unit) (raw : Bool) :
    (fuel level : Nat) → Text → Except Fault Text
  | 0, _, t => .ok t
  | fuel + 1, level, t => do
    let (before, rest, doubled) ← fieldless raw (0 < level) [] (t.length + 1) t
    if !raw then
      match escapeFault? 0 before with
      | some f => throw f
      | none => pure ()
    if doubled then checkFields check raw fuel level rest
    else
      match rest with
      | [] => if level = 0 then return [] else throw (.field .missingClose)
      | '\x7b' :: rest =>
        if 2 ≤ level then throw (.field .tooDeep)
        let (e, rest) ← fieldExpr 0 none [] [] rest
        checkFieldExpr check e.reverse (rest.headD ' ')
        let rest ← afterConversion (← afterEquals rest)
        let rest ←
          match rest with
          | ':' :: format =>
            if format = [] then throw (.field .missingClose)
            else checkFields check raw fuel (level + 1) format
          | rest => pure rest
        match rest with
        | '\x7d' :: rest => checkFields check raw fuel level rest
        | _ => throw (.field .missingClose)
      | rest => if level = 0 then throw (.field .rest) else return rest

/-! ### Whole texts -/

/-- A text in quotes: what it is made of, and what stands between the quotes. -/
structure Quotation where
  bytes : Bool
  raw : Bool
  fields : Bool
  content : Text
  deriving DecidableEq, Repr

/-- Takes a token with quotes apart. -/
def Quotation.ofToken (t : Text) : Quotation :=
  let letters := (t.takeWhile Char.isAlpha).map Char.toLower
  let body := t.drop letters.length
  let width := if 6 ≤ body.length && (body.take 3).all (some · == body.head?) then 3 else 1
  { bytes := letters.contains 'b'
    raw := letters.contains 'r'
    fields := letters.contains 'f'
    content := (body.drop width).take (body.length - 2 * width) }

/-- What is wrong with a text without fields. -/
def Quotation.fault? (q : Quotation) : Option Fault :=
  if q.fields then none
  else if q.bytes then
    if q.content.any fun c => 128 ≤ c.toNat then some .wideByte
    else if q.raw then none
    else byteFault? 0 q.content
  else if q.raw then none
  else escapeFault? 0 q.content

/-- Checks texts that follow each other, where `bytes` says what those before them are made of. -/
def checkQuotations (check : Text → Except Fault Unit) (bytes : Option Bool) :
    List Quotation → Except Fault Unit
  | [] => .ok ()
  | q :: rest => do
    if let some f := q.fault? then throw f
    if bytes.any (· != q.bytes) then throw .mixedBytes
    if q.fields then
      let _ ← checkFields check q.raw (q.content.length + 1) 0 q.content
    checkQuotations check (some q.bytes) rest

/-- The expression that texts which follow each other stand for. Expressions in fields are left to
`check`. -/
def joinQuoted (check : Text → Except Fault Unit) (tokens : List Text) : Except Fault Expr := do
  let parts := tokens.map Quotation.ofToken
  checkQuotations check none parts
  if parts.any Quotation.fields then return .other .fields
  else if parts.any Quotation.bytes then return .constant .bytes
  else return .constant .text

end SymbolAtlas.Report.Handler
