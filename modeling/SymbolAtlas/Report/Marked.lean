import SymbolAtlas.Report.Cells
import SymbolAtlas.Text.Basic

/-!
# Text with marks

A mark gives a part of a text a style. Marks follow the text when it is cut, divided and moved, and
in the end the text is shown in pieces that begin and end where marks do.
-/

namespace SymbolAtlas.Report

/-- Characters that are never printed: bell, backspace, vertical tab, form feed and carriage
return. -/
def isControl (c : Char) : Bool := [7, 8, 11, 12, 13].contains c.toNat

/-- The text as it is printed. -/
def printed (t : Text) : Text := t.filter fun c => !isControl c

/-- A mark on the characters of a text from one offset up to another. -/
structure Mark where
  start : Nat
  stop : Nat
  /-- The words of the style; some marks have none. -/
  style : Option Text
  deriving DecidableEq, Repr

/-- The mark with other offsets. -/
def Mark.shift (k : Mark) (n : Nat) : Mark := { k with start := k.start + n, stop := k.stop + n }

/-- Text with marks. -/
structure Marked where
  text : Text
  marks : List Mark
  deriving DecidableEq, Repr

namespace Marked

/-- Text without marks. -/
def plain (t : Text) : Marked := ⟨t, []⟩

/-- Another text under the marks of a text. If it is shorter, the marks end with it, and those that
would start after it go. -/
def withText (m : Marked) (t : Text) : Marked :=
  let n := t.length
  if m.text.length ≤ n then ⟨t, m.marks⟩
  else ⟨t, m.marks.filterMap fun k =>
    if k.start < n then some { k with stop := min n k.stop } else none⟩

/-- The text with `n` spaces before it. -/
def indent (m : Marked) (n : Nat) : Marked :=
  ⟨List.replicate n ' ' ++ m.text, m.marks.map (Mark.shift · n)⟩

/-- The characters from one offset up to another, with the marks that are on any of them. -/
def slice (m : Marked) (start stop : Nat) : Marked :=
  ⟨(m.text.drop start).take (stop - start), m.marks.filterMap fun k =>
    let k := { k with start := max start k.start - start, stop := min stop k.stop - start }
    if k.start < k.stop then some k else none⟩

/-- The parts of a text between offsets, from `start` on. -/
def divideFrom (m : Marked) (start : Nat) : List Nat → List Marked
  | [] => [m.slice start m.text.length]
  | n :: rest => m.slice start n :: m.divideFrom n rest

/-- The parts of a text between offsets. A text that is not divided keeps all its marks. -/
def divide (m : Marked) (offsets : List Nat) : List Marked :=
  if offsets = [] then [m] else m.divideFrom 0 offsets

/-- Text after text. -/
def append (m n : Marked) : Marked :=
  ⟨m.text ++ n.text, m.marks ++ n.marks.map (Mark.shift · m.text.length)⟩

/-- The texts between the places where a character stands. -/
def splitOn (m : Marked) (c : Char) : List Marked :=
  if m.text.contains c then
    let places := m.text.zipIdx.filterMap fun (d, i) => if d == c then some i else none
    (m.divideFrom 0 (places.flatMap fun i => [i, i + 1])).zipIdx.filterMap fun (part, i) =>
      if i % 2 = 0 then some part else none
  else [m]

/-- Cuts a text that starts at `index` into pieces; `piece` holds the current one in reverse. -/
def piecesFrom (cuts : List Nat) (index : Nat) (piece : Text) : Text → List Text
  | [] => if piece = [] then [] else [piece.reverse]
  | c :: t =>
    if piece ≠ [] && cuts.contains index then
      piece.reverse :: piecesFrom cuts (index + 1) [c] t
    else piecesFrom cuts (index + 1) (c :: piece) t

/-- The pieces of a text between the ends of its marks. -/
def pieces (m : Marked) : List Text :=
  piecesFrom (m.marks.flatMap fun k => [k.start, k.stop]) 0 [] m.text

end Marked

/-! ### Lines in pieces -/

/-- A line of the output, in pieces. Each of them is measured by itself. -/
abbrev Line := List Text

namespace Line

/-- The number of cells of a line. -/
def cells (l : Line) : Nat := (l.map Report.cells).foldl (· + ·) 0

/-- The pieces of a line up to a number of cells. -/
def cut (width : Nat) : Line → Line
  | [] => []
  | p :: rest =>
    if Report.cells p < width then p :: cut (width - Report.cells p) rest
    else [fitCells width p]

/-- The line, cut off where it has more cells than that. -/
def crop (width : Nat) (l : Line) : Line := if l.cells ≤ width then l else l.cut width

/-- The line, cut off or filled up with spaces to a number of cells. -/
def fit (width : Nat) (l : Line) : Line :=
  if l.cells < width then l ++ [List.replicate (width - l.cells) ' '] else l.crop width

/-- The text of a line. -/
def text (l : Line) : Text := l.flatten

end Line

end SymbolAtlas.Report
