import SymbolAtlas.Report.Marked

/-!
# Lines of a given width

Text is laid out in lines that take at most a given number of cells. Tabs lead to the next
multiple of eight. A line that is too long is divided between words; a word that is longer than a
whole line is cut into pieces, or cut off with an ellipsis, as the place asks for it.
-/

namespace SymbolAtlas.Report

/-- `n` times the same character. -/
def repeated (c : Char) (n : Nat) : Text := List.replicate n c

/-! ### Tabs -/

/-- How far tab stops are apart. -/
def tabSize : Nat := 8

/-- The parts of a line up to each tab, and what comes after the last one, put together with spaces
in place of tabs after `done`, which takes `column` cells. -/
def expandParts (column : Nat) (done : Marked) : List Marked → Marked
  | [] => done
  | part :: rest =>
    if part.text.getLast? == some '\t' then
      let t := part.text.dropLast ++ [' ']
      let column := column + cells t
      let more := (tabSize - column % tabSize) % tabSize
      let marks := part.marks.map fun k =>
        if t.length ≤ k.stop then { k with stop := k.stop + more } else k
      expandParts (column + more) (done.append ⟨t ++ repeated ' ' more, marks⟩) rest
    else expandParts (column + cells part.text) (done.append part) rest

/-- The line with spaces in place of tabs. -/
def expandTabs (m : Marked) : Marked :=
  if m.text.contains '\t' then
    let ends := m.text.zipIdx.filterMap fun (c, i) => if c == '\t' then some (i + 1) else none
    expandParts 0 (.plain []) (m.divideFrom 0 ends)
  else m

/-! ### Dividing lines -/

/-- What happens to a word that is longer than a line. -/
inductive Overflow where
  /-- It goes on in the next line. -/
  | fold
  /-- It is cut off, with an ellipsis at the end. -/
  | ellipsis
  deriving DecidableEq, Repr

/-- The words of a text, each with the blanks after it, and the first one with those before it. -/
def words : (fuel : Nat) → Text → List Text
  | 0, _ => []
  | fuel + 1, t =>
    let lead := t.takeWhile isBlank
    let body := (t.drop lead.length).takeWhile fun c => !isBlank c
    let rest := t.drop (lead.length + body.length)
    let trail := rest.takeWhile isBlank
    if body = [] then []
    else (lead ++ body ++ trail) :: words fuel (rest.drop trail.length)

/-- How far a line has been divided. -/
structure Division where
  /-- The offset of the next word. -/
  start : Nat
  /-- How many cells of the current line are taken. -/
  used : Nat
  /-- The offsets at which new lines begin, last first. -/
  breaks : List Nat

/-- Begins a new line at an offset; the first line begins by itself. -/
def Division.breakAt (d : Division) (offset : Nat) : Division :=
  if offset = 0 then d else { d with breaks := offset :: d.breaks }

/-- Puts the pieces of a long word on lines of their own. -/
def Division.addPieces (d : Division) (offset : Nat) : List Text → Division
  | [] => d
  | [last] => { d.breakAt offset with used := cells last }
  | piece :: rest => (d.breakAt offset).addPieces (offset + piece.length) rest

/-- Puts a word on the current line or on a new one. -/
def Division.addWord (width : Nat) (overflow : Overflow) (d : Division) (word : Text) : Division :=
  let size := cells (Text.trimRight word)
  let placed :=
    if size + d.used ≤ width then { d with used := d.used + cells word }
    else if width < size then
      match overflow with
      | .fold => d.addPieces d.start (chopCells width word)
      | .ellipsis => { d.breakAt d.start with used := cells word }
    else if d.used = 0 || d.start = 0 then d
    else { d.breakAt d.start with used := cells word }
  { placed with start := d.start + word.length }

/-- The offsets at which a line is divided. -/
def lineBreaks (width : Nat) (overflow : Overflow) (t : Text) : List Nat :=
  let d : Division := ⟨0, 0, []⟩
  ((words (t.length + 1) t).foldl (Division.addWord width overflow) d).breaks.reverse

/-- Drops blanks from the end of a text that has more characters than fit. -/
def dropExcess (width : Nat) (m : Marked) : Marked :=
  let blanks := (m.text.reverse.takeWhile isBlank).length
  m.withText (m.text.take (m.text.length - min blanks (m.text.length - width)))

/-! ### Alignment -/

/-- Which side of its line a text keeps to. -/
inductive Align where
  /-- The left side, without spaces after the text. -/
  | loose
  | left
  | right
  | center
  deriving DecidableEq, Repr

/-- Cuts a text off that is too long. -/
def truncate (width : Nat) (overflow : Overflow) (m : Marked) : Marked :=
  if cells m.text ≤ width then m
  else
    match overflow with
    | .fold => m.withText (fitCells width m.text)
    | .ellipsis => m.withText (fitCells (width - 1) m.text ++ ['…'])

/-- The text filled up with spaces to a number of cells. -/
def filled (width : Nat) (m : Marked) : Marked := m.withText (fillCells width m.text)

/-- A text that fills a line. Centred text has the smaller half of the filling on its left. -/
def aligned (align : Align) (width : Nat) (overflow : Overflow) (m : Marked) : Marked :=
  let bare := truncate width overflow (m.withText (Text.trimRight m.text))
  match align with
  | .loose => truncate width overflow m
  | .left => filled width (truncate width overflow m)
  | .right => bare.indent (width - cells bare.text)
  | .center => filled width (bare.indent ((width - cells bare.text) / 2))

/-- The lines of a text, aligned in a width of one cell or more. -/
def layout (align : Align) (width : Nat) (overflow : Overflow) (m : Marked) : List Marked :=
  (m.splitOn '\n').flatMap fun line =>
    let line := expandTabs line
    (line.divide (lineBreaks width overflow line.text)).map fun part =>
      aligned align width overflow (dropExcess width part)

/-! ### Measuring -/

/-- Characters at which a text is taken apart when it is measured. -/
def isLineEnd (c : Char) : Bool :=
  c == '\n' || c == '\r' || c == '\x0b' || c == '\x0c' || c == '\x1c' || c == '\x1d' ||
    c == '\x1e' || c == '\x85' || c == '\u2028' || c == '\u2029'

/-- The number of cells of the longest line of a text. Tabs count as nothing. -/
def longestLine (t : Text) : Nat := ((t.splitOnP isLineEnd).map cells).foldl max 0

/-! ### Printing -/

/-- The width of the output where nothing is said about it. -/
def defaultWidth : Nat := 80

/-- The width of the output, given the text that asks for it. Only a row of digits counts. -/
def outputWidth (columns : Option String) : Nat :=
  match columns with
  | none => defaultWidth
  | some s =>
    let t := s.toList
    if t ≠ [] && t.all Char.isDigit then
      t.foldl (fun n c => 10 * n + (c.toNat - '0'.toNat)) 0
    else defaultWidth

/-- Lines as they are printed: none of them goes over the width, and without any width nothing is
printed at all. -/
def printedLines (width : Nat) (lines : List Line) : List String :=
  if width = 0 then [] else lines.map fun l => String.ofList (l.crop width).text

/-- A text as it is printed. -/
def textLines (width : Nat) (s : String) : List String :=
  printedLines width ((layout .loose width .fold (.plain (printed s.toList))).map Marked.pieces)

end SymbolAtlas.Report
