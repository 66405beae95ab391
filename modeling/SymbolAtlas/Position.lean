/-!
# Positions and spans

A position is a line and a column, both counted from 1. A span runs from a start to an end
position; its end column points just past the last character. Spans are compared with positions
inclusively at both ends, and columns count only on the first and the last line.
-/

namespace SymbolAtlas

/-- A line and a column, both counted from 1. -/
structure Position where
  line : Int
  column : Int
  deriving DecidableEq, Repr

namespace Position

/-- Lexicographic order: by line, then by column. -/
def le (p q : Position) : Bool :=
  p.line < q.line || (p.line == q.line && p.column ≤ q.column)

end Position

/-- A stretch of text between two positions. -/
structure Span where
  startLine : Int
  startColumn : Int
  endLine : Int
  endColumn : Int
  deriving DecidableEq, Repr

namespace Span

/-- Where the span starts. -/
def start (s : Span) : Position := ⟨s.startLine, s.startColumn⟩

/-- Where the span ends, just past its last character. -/
def stop (s : Span) : Position := ⟨s.endLine, s.endColumn⟩

/-- Inclusive containment; columns are compared on the two boundary lines only. -/
def contains (s : Span) (p : Position) : Bool :=
  s.startLine ≤ p.line && p.line ≤ s.endLine &&
    !(p.line == s.startLine && p.column < s.startColumn) &&
    !(p.line == s.endLine && s.endColumn < p.column)

/-- A span holds another one when it contains both of its ends. -/
def containsSpan (s t : Span) : Bool := s.contains t.start && s.contains t.stop

end Span

end SymbolAtlas
