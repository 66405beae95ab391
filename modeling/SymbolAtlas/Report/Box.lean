import SymbolAtlas.Number.Binary
import SymbolAtlas.Report.Layout
import SymbolAtlas.Report.Markup

/-!
# Rules, tables and panels

A rule is a line with a title in its middle. A table has a title, a heading row and rows of cells;
a column is as wide as its widest cell. A panel is a box around lines of text with a title in its
upper edge.

Nothing is wider than the output. Where the columns of a table need more, the widest columns
become smaller first, until they are as wide as the next ones, and so on.
-/

namespace SymbolAtlas.Report

/-! ### Rules -/

/-- The text with spaces in place of line ends and tabs. -/
def onOneLine (m : Marked) : Marked :=
  expandTabs { m with text := m.text.map fun c => if c == '\n' then ' ' else c }

/-- A rule over the full width. A title that does not fit is cut off. -/
def rule (width : Nat) (title : Text) : List Line :=
  let title := onOneLine (.plain (printed title))
  if title.text = [] || width ≤ 4 then [[repeated '─' width]]
  else
    let title := truncate (width - 4) .ellipsis title
    let side := (width - cells title.text) / 2
    let left := repeated '─' (side - 1) ++ [' ']
    let whole := left ++ title.text ++ ' ' :: repeated '─' (side + 1)
    let inner : Mark := ⟨left.length, left.length + title.text.length, none⟩
    let whole := Marked.withText ⟨whole, [inner]⟩ (fitCells width whole)
    (layout .loose width .fold whole).map Marked.pieces

/-! ### Tables -/

/-- A column of a table: its heading and its alignment. -/
structure Column where
  heading : String
  align : Align
  deriving DecidableEq, Repr

/-- A table. Headings, cells and the title may hold markup. -/
structure Table where
  title : String
  columns : List Column
  rows : List (List String)
  deriving DecidableEq, Repr

/-- The blanks around a cell. -/
def padding : Nat := 2

/-- The width of a cell with the blanks around it, where there is room for `room` cells. -/
def paddedWidth (room : Nat) (t : Text) : Nat :=
  if room ≤ padding then room else min room (min room (longestLine t) + padding)

/-- The width of a column of cells. -/
def columnWidth (room : Nat) (column : List Marked) : Nat :=
  (column.map fun m => paddedWidth room m.text).foldl max 0

/-- Takes `total` cells off widths, in equal parts, where `chosen` says which widths become
smaller and `most` how much a width may lose. -/
def shrink (total count : Nat) : List (Nat × Bool × Nat) → List Nat
  | [] => []
  | (width, chosen, most) :: rest =>
    if chosen && 0 < count then
      let part := min most (Binary.roundQuotient total count)
      (width - part) :: shrink (total - part) (count - 1) rest
    else width :: shrink total count rest

/-- Makes the widest columns smaller until all fit. -/
def collapse (room : Nat) : (fuel : Nat) → List Nat → List Nat
  | 0, widths => widths
  | fuel + 1, widths =>
    let excess := widths.foldl (· + ·) 0 - room
    let widest := widths.foldl max 0
    let second := (widths.filter (· != widest)).foldl max 0
    if excess = 0 || widest = second then widths
    else
      let most := min excess (widest - second)
      let count := widths.count widest
      collapse room fuel (shrink excess count (widths.map fun w => (w, w == widest, most)))

/-- The widths of columns, where there is room for `room` cells. -/
def columnWidths (room : Nat) (columns : List (List Marked)) : List Nat :=
  let widths := columns.map fun c => max 1 (columnWidth room c)
  if widths.foldl (· + ·) 0 ≤ room then widths
  else
    let widths := collapse room (widths.foldl (· + ·) 0 + 1) widths
    let excess := widths.foldl (· + ·) 0 - room
    let widths :=
      if excess = 0 then widths
      else
        let count := (widths.filter (0 < ·)).length
        shrink excess count (widths.map fun w => (w, decide (0 < w), w))
    (widths.zip columns).map fun (w, c) => columnWidth w c

/-- The pieces of lines whose styles are checked. -/
def checkedPieces (lines : List Marked) : Except MarkupError (List Line) :=
  (checkMarks (lines.flatMap Marked.marks)).map fun () => lines.map Marked.pieces

/-- A line of a given width with a blank before it and one after it. -/
def padded (width : Nat) (l : Line) : Line :=
  Line.fit width ([' '] :: l.fit (width - padding) ++ [[' ']])

/-- The lines of a cell with the blanks around it. -/
def cellLines (align : Align) (width : Nat) (m : Marked) : Except MarkupError (List Line) :=
  if width ≤ padding then .ok []
  else
    (checkedPieces (layout align (width - padding) .ellipsis m)).map (List.map (padded width))

/-- A line across a table with the characters given for its left end, its inner crossings and its
right end. -/
def border (widths : List Nat) (left fill cross right : Char) : Line :=
  [left :: [cross].intercalate (widths.map fun w => repeated fill w) ++ [right]]

/-- The lines of a row, given the lines of its cells. Shorter cells are filled up with empty lines
above or below. -/
def rowLines (widths : List Nat) (bar : Char) (above : Bool) (row : List (List Line)) : List Line :=
  let height := (row.map List.length).foldl max 1
  let full := (widths.zip row).map fun (width, lines) =>
    let empty := List.replicate (height - lines.length) [repeated ' ' width]
    if above then empty ++ lines else lines ++ empty
  (List.range height).map fun i =>
    [bar] :: [[bar]].intercalate (full.map fun lines => lines.getD i []) ++ [[bar]]

namespace Table

/-- The texts of each column, from its heading down. Where there is no room for any text, none is
looked at. -/
def texts (t : Table) (room : Nat) : Except MarkupError (List (List Marked)) :=
  let text (s : String) : Except MarkupError Marked :=
    if room ≤ padding then .ok (.plain []) else markedUp s
  t.columns.zipIdx.mapM fun (c, i) => do
    let heading ← text c.heading
    let below ← t.rows.mapM fun row => text (row.getD i "")
    return heading :: below

/-- The lines of a table. Markup in cells is looked at before that in the title, column by column,
and the styles row by row after all of it. -/
def lines (t : Table) (width : Nat) : Except MarkupError (List Line) :=
  if width = 0 then .ok []
  else do
    let edges := t.columns.length + 1
    let texts ← t.texts (width - edges)
    let title ← markedUp t.title
    let widths := columnWidths (width - edges) texts
    let title ← checkedPieces
      (layout .center (widths.foldl (· + ·) 0 + edges) .fold title)
    let row (i : Nat) : Except MarkupError (List (List Line)) :=
      ((t.columns.map Column.align).zip (widths.zip texts)).mapM fun (align, width, column) =>
        cellLines align width (column.getD i (.plain []))
    let head ← row 0
    let body ← (List.range t.rows.length).mapM fun i => row (i + 1)
    return title ++ [border widths '┏' '━' '┳' '┓'] ++
      rowLines widths '┃' true head ++ [border widths '┡' '━' '╇' '┩'] ++
      body.flatMap (rowLines widths '│' false) ++ [border widths '└' '─' '┴' '┘']

end Table

/-! ### Panels -/

/-- The upper edge of a panel with room for `inner` cells between its corners. -/
def panelTop (inner : Nat) (title : Marked) : Except MarkupError Line :=
  if inner ≤ 2 then .ok ['╭' :: repeated '─' inner ++ ['╮']]
  else
    let title := truncate (inner - 2) .fold title
    let space := inner - 2 - cells title.text
    let shown := if space = 0 then dropExcess (inner - 2) title else title
    (checkMarks shown.marks).map fun () =>
      ['╭', '─'] :: repeated '─' (space / 2) :: shown.pieces ++
        [repeated '─' (space - space / 2), ['─', '╮']]

/-- The lines of a panel around a text. -/
def panelLines (width : Nat) (title content : Marked) : Except MarkupError (List Line) := do
  let title := onOneLine title
  let title := (title.indent 1).withText (' ' :: title.text ++ [' '])
  let room := width - 2
  let inner := min room (max (paddedWidth room content.text) (cells title.text + 2))
  let lines ←
    if inner ≤ padding then .ok []
    else checkedPieces (layout .loose (inner - padding) .fold content)
  let top ← panelTop inner title
  return [top] ++ lines.map (fun l => ['│'] :: padded inner l ++ [['│']]) ++
    [['╰' :: repeated '─' inner ++ ['╯']]]

/-- The lines of a panel. Where there is no room for any text, the markup of its content is not
looked at. -/
def panel (width : Nat) (title : String) (content : List String) :
    Except MarkupError (List Line) :=
  if width = 0 then .ok []
  else do
    let title ← markedUp title
    let content ←
      if width ≤ padding + 2 then .ok (.plain []) else markedUp ("\n".intercalate content)
    panelLines width title content

end SymbolAtlas.Report
