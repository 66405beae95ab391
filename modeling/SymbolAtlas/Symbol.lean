import SymbolAtlas.Outline.Declaration

/-!
# Symbols and snapshots

A snapshot is what was found in one version of a file. Its first symbol stands for the file
itself; the others are its declarations in order, each with an id of its own.
-/

namespace SymbolAtlas

/-- A named part of a file. -/
structure Symbol where
  id : String
  name : String
  kind : Kind
  fileId : String
  span : Span
  selection : Span
  container : Option String
  summary : Option String
  metrics : Option Metrics
  body : Option Span
  deriving DecidableEq, Repr

namespace Symbol

/-- What belongs to a symbol: its body, or its own span if it has none. -/
def scope (s : Symbol) : Span := s.body.getD s.span

/-- The line a symbol is named on. -/
def line (s : Symbol) : Int := s.selection.startLine

/-- The symbol of a declaration, once its id and the id of its container are known. -/
def ofDeclaration (fileId id : String) (container : Option String) (d : Declaration) : Symbol :=
  { id := id
    name := d.name
    kind := d.kind
    fileId := fileId
    span := d.selection
    selection := d.selection
    container := container
    summary := d.summary
    metrics := d.metrics
    body := d.body }

end Symbol

/-- The symbols of one version of a file, and the text they were found in. -/
structure Snapshot where
  fileId : String
  version : Int
  language : String
  symbols : List Symbol
  source : Text
  deriving DecidableEq, Repr

namespace Snapshot

/-- The first symbol with an id. -/
def symbol? (s : Snapshot) (id : String) : Option Symbol := s.symbols.find? (·.id = id)

/-- The symbols that do not stand for a file. -/
def declared (s : Snapshot) : List Symbol := s.symbols.filter (·.kind ≠ .file)

end Snapshot

end SymbolAtlas
