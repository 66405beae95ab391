import SymbolAtlas.Text.Basic

/-!
# The line grammar of declarations

Whether a line declares something is decided by the line alone. `B` stands for one or more
blanks, `b` for none or more, and a bracketed part may be missing.

| Kind | Line |
|---|---|
| class | `b [export B] [default B] [abstract B] class B name` |
| function | `b [export B] [default B] [async B] function (B or b * b) name` |
| method | `b [access B] [static B] [async B] name b (` |

An access word is `public`, `private` or `protected`. The line may go on after what is shown.
An optional word is read as such whenever the rest of the line then still fits, so `static (`
declares a method called `static`.
-/

namespace SymbolAtlas

/-- Reads a line from some point on. If the line fits, the result is the line from the declared
name on. -/
abbrev Reader := Text → Option Text

namespace Reader

/-- Skips blanks. -/
def blanks (next : Reader) : Reader := fun t => next (Text.trimLeft t)

/-- Reads the word `w` and at least one blank after it. -/
def word (w : Text) (next : Reader) : Reader := fun t =>
  match w.isPrefixOf? t with
  | some (c :: rest) => if isBlank c then next (Text.trimLeft rest) else none
  | _ => none

/-- Reads one of the words `ws` if the rest then fits, and otherwise nothing. -/
def optional (ws : List Text) (next : Reader) : Reader := fun t =>
  (ws.findSome? fun w => word w next t).or (next t)

/-- Stops at a name. -/
def name : Reader := fun t =>
  match t with
  | c :: _ => if isIdent c then some t else none
  | [] => none

/-- Stops at a name that an opening parenthesis follows. -/
def calledName : Reader := fun t =>
  match Text.trimLeft (t.dropWhile isIdent) with
  | '(' :: _ => name t
  | _ => none

/-- Reads the word `function` and what may separate it from the name: blanks, or an asterisk
with or without blanks around it. -/
def functionWord (next : Reader) : Reader := fun t =>
  match "function".toList.isPrefixOf? t with
  | none => none
  | some rest =>
    match Text.trimLeft rest with
    | '*' :: after => next (Text.trimLeft after)
    | after => if rest.head?.any isBlank then next after else none

/-- A class line. -/
def classLine : Reader :=
  blanks <| optional ["export".toList] <| optional ["default".toList] <|
    optional ["abstract".toList] <| word "class".toList name

/-- A function line. -/
def functionLine : Reader :=
  blanks <| optional ["export".toList] <| optional ["default".toList] <|
    optional ["async".toList] <| functionWord name

/-- A method line, as far as its shape goes. -/
def methodLine : Reader :=
  blanks <| optional ["public".toList, "private".toList, "protected".toList] <|
    optional ["static".toList] <| optional ["async".toList] calledName

end Reader

/-- Words that may stand before a parenthesis without declaring a method. -/
def nonMethodWords : List String :=
  ["if", "for", "while", "switch", "catch", "return", "function", "typeof", "new", "super",
    "await", "do", "else", "throw", "with", "yield", "delete", "void", "case"]

/-- A line that ends in a semicolon is a statement. -/
def isStatement (line : Text) : Bool := line.trimRight.getLast? == some ';'

/-- A name found on a line, with the number of characters before it. -/
structure Naming where
  name : String
  before : Nat
  deriving DecidableEq, Repr

/-- The naming at the point where a reader stopped. -/
def Naming.ofReader (r : Reader) (line : Text) : Option Naming :=
  (r line).map fun rest => ⟨String.ofList (rest.takeWhile isIdent), line.length - rest.length⟩

/-- What a line declares, taken by itself. A method counts only inside a class. -/
inductive LineKind where
  | classLine (n : Naming)
  | functionLine (n : Naming)
  | methodLine (n : Naming)
  | blankLine
  | otherLine
  deriving DecidableEq, Repr

namespace LineKind

/-- The method reading of a line that is neither a class nor a function line. -/
def method? (line : Text) : Option Naming :=
  (Naming.ofReader .methodLine line).filter fun n =>
    !nonMethodWords.contains n.name && !isStatement line

/-- Class lines take precedence over function lines, and those over method lines. -/
def ofLine (line : Text) : LineKind :=
  match Naming.ofReader .classLine line with
  | some n => .classLine n
  | none =>
    match Naming.ofReader .functionLine line with
    | some n => .functionLine n
    | none =>
      match method? line with
      | some n => .methodLine n
      | none => if isBlankLine line then .blankLine else .otherLine

end LineKind

end SymbolAtlas
