import SymbolAtlas.Settings.Value

/-!
# Files of variables

A file of variables holds statements `NAME=value`, one after the other, with `export` before the
name if one likes. A name may be in single quotes. A value is one of these:

* a text in single or double quotes, which may go over several lines. A backslash before a quote
  or a backslash gives that character, and in double quotes there are a few letters besides; no
  quote after a backslash ends the text;
* the rest of the line, up to a number sign after a blank.

A name without a value takes the variable away. What is no statement is passed over up to the end
of its line.

In values `${NAME}` stands for a variable: one that the file has set before, or else one of the
environment, or else nothing. `${NAME:-text}` gives a text for the last case.
-/

namespace SymbolAtlas

/-- Blanks inside of a line. -/
def isInlineBlank (c : Char) : Bool := isBlank c && c != '\n' && c != '\r'

namespace Statement

/-- What reading a part of a statement yields, with the text after it; or the place where it
breaks off. -/
abbrev Part (α : Type) := Except Text (α × Text)

/-- The text after `export` and the blanks that have to follow it. -/
def afterExport (t : Text) : Text :=
  match "export".toList.isPrefixOf? t with
  | some (c :: rest) => if isInlineBlank c then rest.dropWhile isInlineBlank else t
  | _ => t

/-- The name in a statement; a comment has none. -/
def name (t : Text) : Part (Option String) :=
  match t with
  | '#' :: _ => .ok (none, t)
  | '\x27' :: rest =>
    let body := rest.takeWhile (· != '\x27')
    match body, rest.drop body.length with
    | _ :: _, _ :: after => .ok (some (String.ofList body), after)
    | _, _ => .error t
  | _ =>
    let body := t.takeWhile fun c => c != '=' && c != '#' && !isBlank c
    if body = [] then .error t else .ok (some (String.ofList body), t.drop body.length)

/-- The number of characters before the quote that ends a text in quotes. A character after a
backslash ends none, and a line may not end with a backslash. -/
def quotedLength? (quote : Char) : Text → Option Nat
  | [] => none
  | '\\' :: c :: t => if c == '\n' then none else (quotedLength? quote t).map (· + 2)
  | c :: t =>
    if c == quote then some 0
    else if c == '\\' then none
    else (quotedLength? quote t).map (· + 1)

/-- What may come after a backslash in single quotes. -/
def singleEscapes : List (Char × Char) := [('\\', '\\'), ('\x27', '\x27')]

/-- What may come after a backslash in double quotes. -/
def doubleEscapes : List (Char × Char) :=
  singleEscapes ++ [('\x22', '\x22'), ('a', '\x07'), ('b', '\x08'), ('f', '\x0c'), ('n', '\n'),
    ('r', '\r'), ('t', '\t'), ('v', '\x0b')]

/-- The text that a text with backslashes stands for. -/
def unescape (escapes : List (Char × Char)) : Text → Text
  | '\\' :: c :: t =>
    match escapes.lookup c with
    | some e => e :: unescape escapes t
    | none => '\\' :: unescape escapes (c :: t)
  | c :: t => c :: unescape escapes t
  | [] => []
termination_by t => t.length

/-- A value in quotes. -/
def quotedValue (quote : Char) (escapes : List (Char × Char)) (rest : Text) : Part String :=
  match quotedLength? quote rest with
  | none => .error (quote :: rest)
  | some n => .ok (String.ofList (unescape escapes (rest.take n)), rest.drop (n + 1))

/-- The text up to the first number sign that comes after a blank. -/
def dropTrailingComment : Text → Text
  | [] => []
  | c :: t =>
    if isBlank c && (Text.trimLeft t).head? == some '#' then [] else c :: dropTrailingComment t

/-- The value in a statement, after its equals sign. -/
def value (t : Text) : Part String :=
  match t with
  | '\x27' :: rest => quotedValue '\x27' singleEscapes rest
  | '\x22' :: rest => quotedValue '\x22' doubleEscapes rest
  | _ =>
    let line := t.takeWhile fun c => c != '\n' && c != '\r'
    .ok (String.ofList (Text.trimRight (dropTrailingComment line)), t.drop line.length)

/-- The value in a statement, if it has an equals sign. A number sign after blanks begins a
comment, so that the value is empty. -/
def value? (t : Text) : Part (Option String) :=
  match t with
  | '=' :: rest =>
    match isInlineBlank <$> rest.head?, rest.dropWhile isInlineBlank with
    | some true, '#' :: comment => .ok (some "", '#' :: comment)
    | _, bare => (value bare).map fun (v, rest) => (some v, rest)
  | _ => .ok (none, t)

/-- The end of a line, before which a comment may stand. -/
def lineEnd (t : Text) : Part Unit :=
  let bare := t.dropWhile isInlineBlank
  let rest := if bare.head? == some '#' then bare.dropWhile fun c => c != '\n' && c != '\r' else t
  match rest.dropWhile isInlineBlank with
  | [] => .ok ((), [])
  | '\r' :: '\n' :: after => .ok ((), after)
  | c :: after => if c == '\n' || c == '\r' then .ok ((), after) else .error rest

/-- One statement: the name it sets, if it sets one, and the value. -/
def read (t : Text) : Part (Option String × Option String) :=
  match name (afterExport t) with
  | .error place => .error place
  | .ok (name, t) =>
    match value? (t.dropWhile isInlineBlank) with
    | .error place => .error place
    | .ok (value, t) => (lineEnd t).map fun ((), t) => ((name, value), t)

/-- The text after the end of a line. -/
def nextLine (t : Text) : Text := (t.dropWhile fun c => c != '\n' && c != '\r').drop 1

end Statement

/-- What a file of variables holds: the values it gives, before variables are put in for
references, and the lines at which statements begin that cannot be read. -/
structure VariableFile where
  assignments : List (String × Option String)
  unreadable : List Nat
  deriving DecidableEq, Repr

namespace VariableFile

/-- How many lines end in the text before `rest`. -/
def linesBetween (t rest : Text) : Nat := (t.take (t.length - rest.length)).count '\n'

/-- The statements of a text that starts with some line. -/
def statements (line : Nat) : (fuel : Nat) → Text → VariableFile
  | 0, _ => ⟨[], []⟩
  | fuel + 1, t =>
    match Text.trimLeft t with
    | [] => ⟨[], []⟩
    | bare =>
      match Statement.read bare with
      | .ok ((name, value), rest) =>
        let more := statements (line + linesBetween t rest) fuel rest
        match name with
        | some n => { more with assignments := (n, value) :: more.assignments }
        | none => more
      | .error place =>
        let rest := Statement.nextLine place
        let more := statements (line + linesBetween t rest) fuel rest
        { more with unreadable := line :: more.unreadable }

/-- The statements of a file. A byte order mark at its start is skipped. -/
def ofText (t : Text) : VariableFile :=
  statements 1 (t.length + 1) (if t.head? = some '\ufeff' then t.tail else t)

/-- A reference at the start of a text: the name, the text given in case that there is no such
variable, and the number of characters. -/
def reference? (t : Text) : Option (String × String × Nat) :=
  match t with
  | '$' :: '{' :: rest =>
    let name := rest.takeWhile fun c => c != '}' && c != ':'
    let fallback :=
      match rest.drop name.length with
      | ':' :: '-' :: more => more.takeWhile (· != '}')
      | _ => []
    let size := name.length + (if (rest.drop name.length).head? == some ':' then 2 else 0) +
      fallback.length
    match rest.drop name.length, rest.drop size with
    | ':' :: '-' :: _, '}' :: _ | '}' :: _, '}' :: _ =>
      some (String.ofList name, String.ofList fallback, size + 3)
    | _, _ => none
  | _ => none

/-- A text with the values of variables in place of references. The first `skip` characters
belong to a reference already replaced. -/
def interpolate (get? : String → Option String) (skip : Nat) : Text → Text
  | [] => []
  | c :: t =>
    match skip with
    | n + 1 => interpolate get? n t
    | 0 =>
      match reference? (c :: t) with
      | none => c :: interpolate get? 0 t
      | some (name, fallback, size) =>
        ((get? name).getD fallback).toList ++ interpolate get? (size - 1) t

/-- The names of all variables that a text may refer to. -/
def references : Text → List String
  | [] => []
  | c :: t =>
    match reference? (c :: t) with
    | some (name, _, _) => name :: references t
    | none => references t

/-- The variables of a file. One without a value is known not to be set. -/
def resolve (f : VariableFile) (env : Variables) : Entries String (Option String) :=
  f.assignments.foldl (fun known (name, value) =>
    let get? (n : String) : Option String :=
      match known.get? n with
      | some v => some (v.getD "")
      | none => env.get? n
    known.put name (value.map fun v => String.ofList (interpolate get? 0 v.toList))) {}

end VariableFile

end SymbolAtlas
