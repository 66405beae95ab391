import SymbolAtlas.Report.Emoji
import SymbolAtlas.Report.Handler
import SymbolAtlas.Report.Marked
import SymbolAtlas.Report.Style
import SymbolAtlas.Text.Quoted

/-!
# Markup in cells

Cells, titles and panels may hold markup: a tag in square brackets, which starts with a small
letter, a number sign, an at sign or, to end a style, a slash. Tags are not shown; what is between
a tag and its closing tag, or the end of the text, gets a mark. A tag after an odd number of
backslashes is text, and every two backslashes before a tag are one. A closing tag has to close a
tag that is open; `[/]` closes the last one. A handler is looked at when its tag is closed. In the
text between tags emoji may be written by name.
-/

namespace SymbolAtlas.Report

/-- Why markup cannot be shown. -/
inductive MarkupError where
  /-- The closing tag at an offset closes nothing that is open. -/
  | notOpen (tag : String) (offset : Nat)
  /-- There is nothing open for the closing tag at an offset. -/
  | nothingOpen (offset : Nat)
  /-- A part of a handler cannot be used. -/
  | handler (part written : String) (e : Handler.Error)
  /-- A part of a colour that has to be a number is none. -/
  | number (part : Text) (e : RadixError)
  deriving DecidableEq, Repr

/-- The wording of an error. -/
def MarkupError.message : MarkupError → String
  | .notOpen tag offset =>
    "closing tag '[" ++ tag ++ "]' at position " ++ toString offset ++ " doesn't match any open tag"
  | .nothingOpen offset =>
    "closing tag '[/]' at position " ++ toString offset ++ " has nothing to close"
  | .handler part written (.unreadable f) =>
    "error parsing " ++ quotedText part ++ " in " ++ quotedText written ++ "; " ++ f.message
  | .handler _ written (.valueless f) =>
    "error parsing " ++ quotedText written ++ "; " ++ f.message
  | .number part e => e.message 10 (String.ofList part)

/-- Whether a character may start a tag. -/
def startsTag (c : Char) : Bool := c.isLower || c == '#' || c == '/' || c == '@'

/-- A tag at the start of a text: the number of backslashes before it and what its brackets
hold. -/
def tag? (t : Text) : Option (Nat × Text) :=
  let escapes := t.takeWhile (· == '\\')
  match t.drop escapes.length with
  | '[' :: c :: rest =>
    let body := rest.takeWhile fun d => d != ']' && d != '['
    if startsTag c && (rest.drop body.length).head? == some ']' then
      some (escapes.length, c :: body)
    else none
  | _ => none

/-- A piece of marked-up text. -/
inductive Piece where
  | plain (t : Text)
  | tag (body : Text) (offset : Nat)
  deriving DecidableEq, Repr

/-- What a tag with its backslashes comes to: halved backslashes, then the tag, or the text of
the tag if it is escaped. -/
def tagPieces (escapes : Nat) (body : Text) (offset : Nat) : List Piece :=
  let slashes := List.replicate (escapes / 2) '\\'
  let rest :=
    if escapes % 2 = 1 then [.plain ('[' :: body ++ [']'])]
    else [.tag body (offset + escapes / 2 * 2)]
  if slashes = [] then rest else .plain slashes :: rest

/-- The pieces of a text that starts at `offset`; `front` holds the plain text before it in
reverse, and the first `skip` characters belong to a tag found before. -/
def piecesFrom (front : Text) (skip offset : Nat) : Text → List Piece
  | [] => if front = [] then [] else [.plain front.reverse]
  | c :: t =>
    match skip with
    | n + 1 => piecesFrom front n (offset + 1) t
    | 0 =>
      match tag? (c :: t) with
      | none => piecesFrom (c :: front) 0 (offset + 1) t
      | some (escapes, body) =>
        let found := tagPieces escapes body offset ++
          piecesFrom [] (escapes + body.length + 1) (offset + 1) t
        if front = [] then found else .plain front.reverse :: found

/-- Plain text as it is shown: a backslash before an opening bracket is dropped. -/
def plainText : Text → Text
  | '\\' :: '[' :: t => '[' :: plainText t
  | c :: t => c :: plainText t
  | [] => []

/-- A tag that is open: the name of its style, and what follows the equals sign, if one does. -/
structure OpenTag where
  /-- The offset in the text that is shown. -/
  start : Nat
  name : Text
  parameters : Option Text
  deriving DecidableEq, Repr

/-- Takes the innermost open tag of a name away. -/
def closeTag (name : Text) : List OpenTag → Option (OpenTag × List OpenTag)
  | [] => none
  | t :: rest =>
    if t.name = name then some (t, rest)
    else (closeTag name rest).map fun (found, rest) => (found, t :: rest)

/-- Checks the handler of a tag that is closed. -/
def OpenTag.check (t : OpenTag) : Except MarkupError Unit :=
  match t.name.head?, t.parameters with
  | some '@', some (c :: p) =>
    let part := Handler.expression (Text.trim (c :: p))
    match Handler.check part with
    | none => .ok ()
    | some e => .error (.handler (String.ofList part) (String.ofList (c :: p)) e)
  | _, _ => .ok ()

/-- The words of the style of a tag. -/
def OpenTag.style (t : OpenTag) : Text :=
  match t.parameters with
  | none => t.name
  | some p => t.name ++ ' ' :: p

/-- The mark that a tag puts on the text up to an offset. -/
def OpenTag.mark (t : OpenTag) (stop : Nat) : Mark := ⟨t.start, stop, some t.style⟩

/-- The mark of a tag that is closed. A handler has no style. -/
def OpenTag.closedMark (t : OpenTag) (stop : Nat) : Mark :=
  if t.name.head? == some '@' then { t.mark stop with style := none } else t.mark stop

/-- What is before an equals sign in a tag, and what follows it, if there is one. -/
def tagParts (body : Text) : Text × Option Text :=
  let name := body.takeWhile (· != '=')
  match body.drop name.length with
  | [] => (name, none)
  | _ :: parameters => (name, some parameters)

/-- The normal name of a style in a tag. -/
def tagName (style : Text) : Except MarkupError Text :=
  match styleName style with
  | .ok name => .ok name
  | .error (.number part e) => .error (.number part e)
  | .error .unknown => .ok style

/-- Markup that has been shown in part: the text, its marks and the tags that are open, in both
lists the last one first. -/
structure Showing where
  text : Text
  marks : List Mark
  opened : List OpenTag
  deriving DecidableEq, Repr

namespace Showing

/-- Closes a tag. -/
def close (s : Showing) (t : OpenTag) (others : List OpenTag) : Except MarkupError Showing :=
  t.check.map fun () =>
    { s with marks := t.closedMark s.text.length :: s.marks, opened := others }

/-- Adds a closing tag. -/
def closing (s : Showing) (body style : Text) (offset : Nat) : Except MarkupError Showing :=
  if Text.trim style = [] then
    match s.opened with
    | [] => .error (.nothingOpen offset)
    | t :: others => s.close t others
  else
    match tagName (Text.trim style) with
    | .error e => .error e
    | .ok name =>
      match closeTag name s.opened with
      | none => .error (.notOpen (String.ofList body) offset)
      | some (t, others) => s.close t others

/-- Adds a piece. -/
def add (s : Showing) : Piece → Except MarkupError Showing
  | .plain t => .ok { s with text := s.text ++ printed (replaceEmoji (plainText t)) }
  | .tag body offset =>
    let (name, parameters) := tagParts body
    match name with
    | '/' :: style => s.closing body style offset
    | _ => (tagName name).map fun style =>
        { s with opened := ⟨s.text.length, style, parameters⟩ :: s.opened }

/-- The text with its marks in order. Of marks that start together, the one that was closed last
comes first. -/
def finish (s : Showing) : Marked :=
  let rest := s.opened.map (OpenTag.mark · s.text.length)
  ⟨s.text, (rest.reverse ++ s.marks).mergeSort fun a b => a.start ≤ b.start⟩

end Showing

/-- Text with marks in place of its markup. -/
def markedUp (s : String) : Except MarkupError Marked :=
  ((piecesFrom [] 0 0 s.toList).foldlM Showing.add ⟨[], [], []⟩).map Showing.finish

/-- Checks the styles of marks. Words that are no style have no effect. -/
def checkMarks (marks : List Mark) : Except MarkupError Unit :=
  marks.forM fun k =>
    match k.style.map Style.ofText with
    | some (.error (.number part e)) => .error (.number part e)
    | _ => .ok ()

end SymbolAtlas.Report
