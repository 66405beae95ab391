import SymbolAtlas.Report.Box
import SymbolAtlas.Session.Query
import SymbolAtlas.Text.Quoted

/-!
# What commands print

Each part of the output as lines of text: headers, tables of symbols and calls, history, and the
explanation of a symbol.
-/

namespace SymbolAtlas.Report

/-- A symbol id without its file: what follows the first pair of colons. -/
def shortIdFrom : Text → Option Text
  | ':' :: ':' :: t => some t
  | _ :: t => shortIdFrom t
  | [] => none

/-- A symbol id without its file, or the whole id if it names none. -/
def shortId (id : String) : String := ((shortIdFrom id.toList).map String.ofList).getD id

/-- An empty line and a rule with a title. -/
def header (width : Nat) (title : String) : List String :=
  printedLines width ([] :: rule width title.toList)

/-- A message about something that stopped the command. -/
def errorLines (width : Nat) (message : String) : List String :=
  textLines width ("Error: " ++ message)

/-- A message about something that did not. -/
def warningLines (width : Nat) (message : String) : List String :=
  textLines width ("Warning: " ++ message)

/-- The columns of a table of symbols. -/
def symbolColumns (verbose : Bool) : List Column :=
  [⟨"Kind", .left⟩, ⟨"Name", .left⟩, ⟨"Line", .right⟩, ⟨"Container", .left⟩] ++
    if verbose then [⟨"LOC", .right⟩, ⟨"CC", .right⟩, ⟨"Summary", .left⟩] else []

/-- The row of one symbol, given the names of all of them. -/
def symbolRow (verbose : Bool) (names : Entries String String) (s : Symbol) : List String :=
  [s.kind.label, s.name, toString s.line, (s.container.bind names.get?).getD ""] ++
    if verbose then
      [ (s.metrics.map fun m => toString m.lines).getD "",
        ((s.metrics.bind Metrics.complexity).map fun (n : Nat) => toString n).getD "",
        s.summary.getD "" ]
    else []

/-- The table of the symbols of a snapshot. -/
def symbolTable (verbose : Bool) (s : Snapshot) : Table :=
  let names := Entries.ofList (s.symbols.map fun x => (x.id, x.name))
  { title := s.fileId ++ " (v" ++ toString s.version ++ ")"
    columns := symbolColumns verbose
    rows := s.symbols.map (symbolRow verbose names) }

/-- The table of calls. -/
def edgeTable (edges : List Edge) : Table :=
  { title := "Calls"
    columns := [⟨"Caller", .left⟩, ⟨"Callee", .left⟩]
    rows := edges.map fun e => [shortId e.caller, shortId e.callee] }

/-- The lines about the calls of a file. -/
def edgeLines (width : Nat) (edges : List Edge) : Except MarkupError (List String) :=
  if edges = [] then .ok (textLines width "No call edges.")
  else ((edgeTable edges).lines width).map (printedLines width)

/-- The lines about the symbols without a container. -/
def exportedLines (width : Nat) (symbols : List Symbol) : List String :=
  let names := ", ".intercalate (symbols.map Symbol.name)
  textLines width ("Top-level: " ++ if names = "" then "(none)" else names)

/-- The lines about an indexed file. -/
def fileLines (width : Nat) (verbose : Bool) (session : Session) (s : Snapshot) :
    Except MarkupError (List String) := do
  let table ← (symbolTable verbose s).lines width
  let edges ← edgeLines width (session.graph.edgesOf s.fileId)
  return header width s.fileId ++ printedLines width table ++ edges ++
    exportedLines width (session.exported s.fileId)

/-- The lines about the changes of a file. -/
def historyLines (width : Nat) (events : List Event) : List String :=
  if events = [] then textLines width "No symbol changes."
  else events.flatMap fun e => textLines width
    ("#" ++ toString e.number ++ " " ++ e.change.summary ++ "  (v" ++ toString e.version ++ ")")

/-- The lines about recently changed spans, if there are any. -/
def recentLines (width : Nat) (spans : List Span) : List String :=
  if spans = [] then []
  else
    textLines width ("Recently changed lines: " ++ ", ".intercalate (spans.map fun s =>
      toString s.startLine ++ "-" ++ toString s.endLine))

/-- The panel about a symbol and what depends on it. -/
def explanationLines (width : Nat) (e : Explanation) (impacted : List String) :
    Except MarkupError (List String) :=
  let effects :=
    if impacted = [] then ["No direct impact detected from deleting this symbol."]
    else
      ("Potentially impacted symbols if deleted: " ++ toString impacted.length) ::
        impacted.map fun id => "  " ++ shortId id
  (panel width e.name (e.lines ++ effects)).map (printedLines width)

/-- The lines about other symbols of the same name, if there are any. -/
def duplicateLines (width : Nat) (name : String) (others : List Symbol) : List String :=
  if others = [] then []
  else
    warningLines width (toString others.length ++ " other symbol(s) named " ++ quotedText name ++
      ": " ++ ", ".intercalate (others.map fun s => "line " ++ toString s.line))

end SymbolAtlas.Report
