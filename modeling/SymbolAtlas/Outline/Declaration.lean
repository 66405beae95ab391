import SymbolAtlas.Text.Lines
import SymbolAtlas.Outline.Punctuation
import SymbolAtlas.Outline.Grammar
import SymbolAtlas.Outline.Branches
import SymbolAtlas.Outline.Comment

/-!
# The outline of a text

The outline lists the classes, functions and methods a text declares, in line order and at most
one per line. A class line opens a class and a blank line closes it; method lines in between
belong to it. A declaration's body is the block of braces that follows its name.
-/

namespace SymbolAtlas

/-- What a symbol is. -/
inductive Kind where
  | file
  | klass
  | method
  | function
  | property
  | variable
  | unknown
  deriving DecidableEq, Repr

namespace Kind

/-- The word for a kind. -/
def label : Kind → String
  | .file => "file"
  | .klass => "class"
  | .method => "method"
  | .function => "function"
  | .property => "property"
  | .variable => "variable"
  | .unknown => "unknown"

/-- Functions and methods can be called. -/
def isCallable : Kind → Bool
  | .function | .method => true
  | _ => false

end Kind

/-- The size of a symbol, and the complexity of one that has code of its own. -/
structure Metrics where
  lines : Int
  complexity : Option Nat
  deriving DecidableEq, Repr

/-- One declaration. Its container is the index of its class among the declarations. -/
structure Declaration where
  name : String
  kind : Kind
  line : Int
  column : Int
  container : Option Nat
  body : Option Span
  summary : Option String
  metrics : Option Metrics
  deriving DecidableEq, Repr

/-- The span of a declaration's name. -/
def Declaration.selection (d : Declaration) : Span :=
  ⟨d.line, d.column, d.line, d.column + d.name.length⟩

/-- The declarations of a text with its number of lines and the length of its last line. -/
structure Outline where
  declarations : List Declaration
  lineCount : Nat
  lastLineLength : Nat
  deriving DecidableEq, Repr

namespace Outline

/-- From the first position of the text to the end of its last line. -/
def fileSpan (o : Outline) : Span :=
  ⟨1, 1, max 1 o.lineCount, o.lastLineLength + 1⟩

/-- A text with its line index and its punctuation. -/
structure Source where
  text : Text
  index : LineIndex
  punctuation : Punctuation

/-- A text made ready for declarations to be read off it. -/
def Source.ofText (t : Text) : Source := ⟨t, .ofText t, .ofText t⟩

/-- Where a body ends: at its closing brace, or at the end of the text if it is never closed. -/
def Source.bodyEnd (src : Source) (block : Punctuation.Block) : Nat :=
  block.closer.getD src.text.length

/-- The text from offset `first` through offset `last`. -/
def Source.slice (src : Source) (first last : Nat) : Text :=
  (src.text.drop first).take (last + 1 - first)

/-- The declaration of `n` on line `line`, given the lines above that line, nearest first. -/
def Source.declaration (src : Source) (kind : Kind) (container : Option Nat) (line : Nat)
    (above : List Text) (n : Naming) : Declaration :=
  let column : Int := n.before + 1
  let offset := src.index.offsetAt ⟨line, column⟩
  let ending := (src.punctuation.blockAfter (offset + n.name.length)).map src.bodyEnd
  { name := n.name
    kind := kind
    line := line
    column := column
    container := container
    body := ending.map fun last =>
      let stop := src.index.positionOf last
      ⟨line, column, stop.line, stop.column + 1⟩
    summary := summaryOf above
    metrics := ending.map fun last =>
      { lines := (src.index.positionOf last).line - line + 1
        complexity :=
          if kind = .klass then none else some (1 + branches (src.slice offset last)) } }

/-- The declarations of the lines from number `line` on. `above` holds the lines before them,
nearest first, `current` the index of the open class, and `count` the number of declarations
made so far. -/
def Source.declarations (src : Source) (line : Nat) (above : List Text) (current : Option Nat)
    (count : Nat) : List Text → List Declaration
  | [] => []
  | l :: rest =>
    match LineKind.ofLine l with
    | .classLine n =>
      src.declaration .klass none line above n ::
        src.declarations (line + 1) (l :: above) (some count) (count + 1) rest
    | .functionLine n =>
      src.declaration .function none line above n ::
        src.declarations (line + 1) (l :: above) current (count + 1) rest
    | .methodLine n =>
      match current with
      | some c =>
        src.declaration .method (some c) line above n ::
          src.declarations (line + 1) (l :: above) current (count + 1) rest
      | none => src.declarations (line + 1) (l :: above) current count rest
    | .blankLine => src.declarations (line + 1) (l :: above) none count rest
    | .otherLine => src.declarations (line + 1) (l :: above) current count rest

/-- The outline of a text. -/
def ofText (t : Text) : Outline :=
  let lines := t.lines
  { declarations := (Source.ofText t).declarations 1 [] none 0 lines
    lineCount := lines.length
    lastLineLength := (lines.getLastD []).length }

end Outline

end SymbolAtlas
