import SymbolAtlas.Text.Basic
import SymbolAtlas.Position

/-!
# Lines

A line ends at a line feed, at a carriage return, or at a carriage return followed by a line
feed, which counts as one break. `lines` cuts a text into the pieces between the breaks, so a
text with `n` breaks has `n + 1` lines and the empty text has one, empty, line.

`LineIndex` keeps only the offsets at which lines start. With them it turns offsets into
positions and back; both directions clamp, so they are total.
-/

namespace SymbolAtlas

namespace Text

/-- The lines of a text, with `front` holding the current line so far in reverse. -/
def linesFrom (front : Text) : Text → List Text
  | [] => [front.reverse]
  | '\r' :: '\n' :: t => front.reverse :: linesFrom [] t
  | '\r' :: t => front.reverse :: linesFrom [] t
  | '\n' :: t => front.reverse :: linesFrom [] t
  | c :: t => linesFrom (c :: front) t

/-- The pieces of a text between its line breaks. -/
def lines (t : Text) : List Text := linesFrom [] t

/-- The text with a line feed for every line break. -/
def unixBreaks : Text → Text
  | [] => []
  | '\r' :: '\n' :: t => '\n' :: unixBreaks t
  | '\r' :: t => '\n' :: unixBreaks t
  | c :: t => c :: unixBreaks t

/-- The offsets just past each line break of a text whose first character has offset `offset`. -/
def breakEnds (offset : Nat) : Text → List Nat
  | [] => []
  | '\r' :: '\n' :: t => (offset + 2) :: breakEnds (offset + 2) t
  | '\r' :: t => (offset + 1) :: breakEnds (offset + 1) t
  | '\n' :: t => (offset + 1) :: breakEnds (offset + 1) t
  | _ :: t => breakEnds (offset + 1) t

end Text

/-- The length of a text and the offsets at which its lines start, in increasing order. -/
structure LineIndex where
  length : Nat
  starts : List Nat
  deriving Repr

namespace LineIndex

/-- The first line starts at offset 0 and every other one just past a break. -/
def ofText (t : Text) : LineIndex := ⟨t.length, 0 :: Text.breakEnds 0 t⟩

/-- The number of lines, at least one. -/
def lineCount (ix : LineIndex) : Nat := ix.starts.length

/-- The position of an offset inside the text: the last line that starts at or before it. -/
def positionOf (ix : LineIndex) (offset : Nat) : Position :=
  let begun := ix.starts.takeWhile (· ≤ offset)
  ⟨begun.length, ↑(offset - begun.getLastD 0) + 1⟩

/-- The position of any integer offset, which is first clamped to the text. -/
def positionAt (ix : LineIndex) (offset : Int) : Position :=
  ix.positionOf (min offset.toNat ix.length)

/-- The offset of a position. The line is clamped to the lines there are, a column below 1
counts as 1, and the result never passes the end of the text. -/
def offsetAt (ix : LineIndex) (p : Position) : Nat :=
  let line := min (p.line - 1).toNat (ix.lineCount - 1)
  min (ix.starts.getD line 0 + (p.column - 1).toNat) ix.length

end LineIndex

end SymbolAtlas
